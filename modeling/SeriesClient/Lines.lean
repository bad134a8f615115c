/-! Plain text for people: lines that each end in a line feed, made of words with single spaces
between them. -/
namespace SeriesClient

def lines (texts : List String) : String := String.join (texts.map (· ++ "\n"))

def spaced (words : List String) : String := String.intercalate " " words

end SeriesClient
