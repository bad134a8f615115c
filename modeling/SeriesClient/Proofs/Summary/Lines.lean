import SeriesClient.Proofs.Number.FloatTexts
import SeriesClient.Summary

/-! A summary whose values fill the windows of all its paths. Each place inside has a value and no
other has, and its text has one line per window, with the values of the paths in their order. -/
namespace SeriesClient.Summary
variable {summary : Summary}

/-- There is a value for every window of every path, and a word for the place of each. -/
structure Full (summary : Summary) : Prop where
  counted : summary.values.length = summary.paths.length * summary.windowCount
  addressed : summary.paths.length * summary.windowCount < Wire.wordSize 8

theorem wrapped_of_lt {count : Nat} (addressed : count < Wire.wordSize 8) :
    wrapped count = count := Nat.mod_eq_of_lt addressed

theorem place_lt {paths windows path window : Nat} (inside : path < paths)
    (within : window < windows) : path * windows + window < paths * windows := by
  calc path * windows + window
    _ < path * windows + windows := Nat.add_lt_add_left within _
    _ = (path + 1) * windows := (Nat.succ_mul path windows).symm
    _ ≤ paths * windows := Nat.mul_le_mul_right windows inside

theorem Full.value?_eq (full : summary.Full) {path window : Nat}
    (inside : path < summary.paths.length) (within : window < summary.windowCount) :
    summary.value? path window = summary.values[path * summary.windowCount + window]? := by
  have place := wrapped_of_lt ((place_lt inside within).trans full.addressed)
  simp [value?, Nat.not_le.mpr inside, Nat.not_le.mpr within, place]

theorem Full.exists_value (full : summary.Full) {path window : Nat}
    (inside : path < summary.paths.length) (within : window < summary.windowCount) :
    ∃ value, summary.values[path * summary.windowCount + window]? = some value ∧
      summary.value? path window = some value := by
  have there : path * summary.windowCount + window < summary.values.length :=
    full.counted ▸ place_lt inside within
  have value := List.getElem?_eq_getElem there
  exact ⟨_, value, (full.value?_eq inside within).trans value⟩

theorem Full.isSome_value?_iff (full : summary.Full) {path window : Nat} :
    (summary.value? path window).isSome ↔
      path < summary.paths.length ∧ window < summary.windowCount := by
  constructor
  · intro found
    rw [value?] at found
    split at found
    · cases found
    · rename_i inside
      simpa using inside
  · rintro ⟨inside, within⟩
    obtain ⟨value, -, found⟩ := full.exists_value inside within
    rw [found]
    rfl

/-- Values of a window, in the order of the paths. -/
def windowValues (summary : Summary) (window : Nat) : List Value :=
  (List.range summary.paths.length).filterMap (summary.value? · window)

theorem map_some_filterMap {α β : Type} {f : α → Option β} {items : List α}
    (all : ∀ item ∈ items, (f item).isSome) : (items.filterMap f).map some = items.map f := by
  induction items with
  | nil => rfl
  | cons item items ih =>
    obtain ⟨head, tail⟩ := List.forall_mem_cons.mp all
    obtain ⟨b, found⟩ := Option.isSome_iff_exists.mp head
    rw [List.filterMap_cons_some found, List.map_cons, List.map_cons, ih tail, found]

/-- No value of a window is absent. -/
theorem Full.map_some_windowValues (full : summary.Full) {window : Nat}
    (within : window < summary.windowCount) : (summary.windowValues window).map some =
      (List.range summary.paths.length).map (summary.value? · window) := by
  apply map_some_filterMap
  intro path listed
  exact full.isSome_value?_iff.mpr ⟨List.mem_range.mp listed, within⟩

/-- What stands before the values of a window: its start, if windows have one. -/
def timeTexts (summary : Summary) (window : Nat) : List String :=
  ((summary.timestamps.getD [])[window]?).toList.map fun timestamp => toString timestamp.toInt

def windowWords (summary : Summary) (texts : FloatTexts) (window : Nat) : List String :=
  summary.timeTexts window ++ (summary.windowValues window).map (Value.textBy texts)

def functionName : Reduction → String
  | .max => "MAX"
  | .min => "MIN"
  | .sum => "SUM"
  | .count => "COUNT"
  | .avg => "AVG"
  | .firstValue => "FIRST_VALUE"
  | .lastValue => "LAST_VALUE"

/-- The columns, each as a function of its path. -/
def labels (summary : Summary) : List String :=
  summary.paths.map fun path => functionName summary.reduction ++ "(" ++ path ++ ")"

/-- Words with a space between each and the next, and a line feed behind the last. -/
def line : List String → String
  | [] => "\n"
  | [word] => word ++ "\n"
  | word :: words => word ++ " " ++ line words

/-- The text of a full summary: its title, then a line for each window. -/
def text (summary : Summary) (texts : FloatTexts) : String :=
  (if summary.timestamps.isSome then "Time " else "") ++ line summary.labels ++
    String.join (((List.range summary.windowCount).map (summary.windowWords texts)).map line)

theorem line_eq (words : List String) : line words = spaced words ++ "\n" := by
  induction words with
  | nil => rfl
  | cons word words ih =>
    cases words with
    | nil => rfl
    | cons next words =>
      rw [line, ih, spaced, spaced, String.intercalate_cons_cons]
      · simp only [String.append_assoc]
      · exact List.cons_ne_nil next words

theorem header_eq (summary : Summary) : summary.header = spaced summary.labels := by
  rw [header, labels]
  cases summary.reduction <;> rfl

theorem Full.cells_display (full : summary.Full) {texts : FloatTexts} (plain : texts.Plain)
    {window : Nat} (within : window < summary.windowCount) :
    (List.range summary.paths.length).map (fun path => Cell.display (summary.value? path window)) =
      (summary.windowValues window).map (Value.textBy texts) := by
  calc (List.range summary.paths.length).map fun path => Cell.display (summary.value? path window)
    _ = ((List.range summary.paths.length).map (summary.value? · window)).map Cell.display := by
      rw [List.map_map]
      rfl
    _ = ((summary.windowValues window).map some).map Cell.display := by
      rw [full.map_some_windowValues within]
    _ = (summary.windowValues window).map Value.display := List.map_map ..
    _ = (summary.windowValues window).map (Value.textBy texts) := by
      rw [funext (Value.display_eq_textBy plain)]

/-- From any window on, the lines have the words of their windows. -/
theorem Full.windowLines_eq (full : summary.Full) {texts : FloatTexts} (plain : texts.Plain)
    {first : Nat} {timestamps : List Int64}
    (left : (summary.timestamps.getD []).drop first = timestamps)
    (count : summary.windowCount = first + timestamps.length) :
    summary.windowLines first timestamps = (List.range timestamps.length).map fun window =>
      spaced (summary.windowWords texts (first + window)) := by
  induction timestamps generalizing first with
  | nil => rfl
  | cons timestamp timestamps ih =>
    have head : (summary.timestamps.getD [])[first]? = some timestamp := by
      rw [← List.head?_drop, left, List.head?_cons]
    have tail : (summary.timestamps.getD []).drop (first + 1) = timestamps := by
      rw [← List.tail_drop, left, List.tail_cons]
    have more : summary.windowCount = first + 1 + timestamps.length := by
      rw [count, List.length_cons]
      omega
    have within : first < summary.windowCount := by omega
    have words : summary.windowWords texts first = toString timestamp.toInt ::
        (List.range summary.paths.length).map fun path =>
          Cell.display (summary.value? path first) := by
      rw [windowWords, timeTexts, head, full.cells_display plain within]
      rfl
    have next (window : Nat) : first + 1 + window = first + (window + 1) := by omega
    rw [windowLines, ← words, ih tail more, List.length_cons, List.range_succ_eq_map,
      List.map_cons, List.map_map]
    simp only [next]
    rfl

/-- Without windows the values are those of the one window that there is. -/
theorem Full.windowValues_flat (full : summary.Full) (flat : summary.timestamps = none) :
    summary.windowValues 0 = summary.values := by
  have one : summary.windowCount = 1 := by rw [windowCount, flat]
  have same : (summary.windowValues 0).map some = summary.values.map some := by
    rw [full.map_some_windowValues (one ▸ Nat.one_pos)]
    apply List.ext_getElem
    · rw [List.length_map, List.length_map, List.length_range, full.counted, one, Nat.mul_one]
    · intro path left right
      have inside : path < summary.paths.length := by simpa using left
      have there : path < summary.values.length := by simpa using right
      rw [List.getElem_map, List.getElem_map, List.getElem_range,
        full.value?_eq inside (one ▸ Nat.one_pos), one, Nat.mul_one, Nat.add_zero,
        List.getElem?_eq_getElem there]
  exact (List.map_inj_right fun _ _ => Option.some.inj).mp same

theorem lines_spaced (title : String) (texts : List (List String)) :
    lines (title :: texts.map spaced) = title ++ "\n" ++ String.join (texts.map line) := by
  have each : texts.map line = (texts.map spaced).map (· ++ "\n") := by
    rw [List.map_map]
    exact List.map_congr_left fun words _ => line_eq words
  rw [lines, List.map_cons, String.join_cons, each]

/-- A full summary is displayed as its text, whatever floats are written by. -/
theorem Full.display_eq (full : summary.Full) {texts : FloatTexts} (plain : texts.Plain) :
    summary.display = summary.text texts := by
  have titled : line summary.labels = summary.header ++ "\n" := by rw [line_eq, header_eq]
  cases timed : summary.timestamps with
  | none =>
    have one : summary.windowCount = 1 := by rw [windowCount, timed]
    have words : summary.windowWords texts 0 = summary.values.map Value.display := by
      rw [windowWords, timeTexts, timed, full.windowValues_flat timed,
        funext (Value.display_eq_textBy plain)]
      rfl
    rw [display, timed, text, timed, titled, one, ← words]
    exact (lines_spaced summary.header [_]).trans (congrArg (· ++ _) (String.empty_append.symm))
  | some timestamps =>
    have count : summary.windowCount = timestamps.length := by rw [windowCount, timed]
    have windows : summary.windowLines 0 timestamps = ((List.range timestamps.length).map
        (summary.windowWords texts)).map spaced := by
      rw [full.windowLines_eq plain (by rw [timed]; rfl) (count.trans (Nat.zero_add _).symm),
        List.map_map]
      simp only [Nat.zero_add, Function.comp_def]
    rw [display, timed, text, timed, titled, count]
    simp only [windows, lines_spaced, Option.isSome_some, if_true, String.append_assoc]

end SeriesClient.Summary
