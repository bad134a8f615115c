import SeriesClient.Journal.Log
import SeriesClient.Wire.Utf8.Lemmas

/-! What becomes of the contents of files. Creating a file empties it and leaves all others; a write
goes to the offset of its handle whatever stands before it. So a log that goes on with a file that
was emptied meanwhile leaves zeros in the place of the lines before. -/
namespace SeriesClient.Journal
open Wire

namespace Disk

theorem contents_put_self (disk : Disk) (file : String) (contents : Bytes) :
    (disk.put file contents).contents file = contents := by
  simp only [Disk.contents, put, List.lookup_cons_self, Option.getD_some]

theorem contents_put_of_ne (disk : Disk) {file other : String} (apart : other ≠ file)
    (contents : Bytes) : (disk.put file contents).contents other = disk.contents other := by
  have same (files : List (String × Bytes)) :
      (files.filter fun entry => entry.1 != file).lookup other = files.lookup other := by
    induction files with
    | nil => rfl
    | cons entry files ih =>
      obtain ⟨name, bytes⟩ := entry
      by_cases here : name = file
      · have elsewhere : (other == name) = false := beq_false_of_ne (here ▸ apart)
        rw [List.filter_cons_of_neg (by simp [here]), ih, List.lookup_cons, elsewhere]
      · rw [List.filter_cons_of_pos (by simpa using here), List.lookup_cons, List.lookup_cons, ih]
  have elsewhere : (other == file) = false := beq_false_of_ne apart
  simp only [Disk.contents, put, List.lookup_cons, elsewhere, same]

theorem contents_enter (disk : Disk) (directory : Place) (route : Route) :
    (disk.enter directory route).2.contents = disk.contents := by
  induction route generalizing disk directory with
  | nil => rfl
  | cons piece route ih =>
    rw [enter]
    split
    · exact ih disk directory
    · split
      · exact ih disk directory.dropLast
      · dsimp only
        split
        · rfl
        · rw [ih, makeDirectory]
          split <;> rfl

theorem contents_enterParent (disk : Disk) (route : Route) :
    (disk.enterParent route).2.contents = disk.contents := by
  rw [enterParent]
  split
  · exact contents_enter disk [] route.parent
  · rfl

/-- What creating a file does to the contents of all files. -/
inductive Creates (disk : Disk) : Option Handle × Disk → Prop
  | refused {after : Disk} (same : after.contents = disk.contents) : Creates disk (none, after)
  | emptied {after : Disk} {file : String} (here : after.contents file = [])
      (others : ∀ other, other ≠ file → after.contents other = disk.contents other) :
      Creates disk (some ⟨file, 0⟩, after)

theorem create_effect (disk : Disk) (path : String) : Creates disk (disk.create path) := by
  have entered := contents_enterParent disk (Route.ofPath disk.home path)
  rw [create]
  rcases walked : disk.enterParent (Route.ofPath disk.home path) with ⟨_ | directory, after⟩
  · rw [walked] at entered
    exact .refused entered
  · rw [walked] at entered
    cases (Route.ofPath disk.home path).fileName? with
    | none => exact .refused entered
    | some name =>
      dsimp only
      split
      · exact .refused entered
      · refine .emptied (contents_put_self ..) fun other apart => ?_
        rw [contents_put_of_ne _ apart, entered]

theorem contents_create {disk : Disk} {path file : String}
    (opened : (disk.create path).1 = some ⟨file, 0⟩) : (disk.create path).2.contents file = [] := by
  have effect := disk.create_effect path
  generalize disk.create path = created at effect opened
  cases effect with
  | refused => cases opened
  | emptied here =>
    cases opened
    exact here

theorem contents_write_of_ne (disk : Disk) (handle : Handle) {other : String}
    (apart : other ≠ handle.file) (bytes : Bytes) :
    (disk.write handle bytes).2.contents other = disk.contents other :=
  contents_put_of_ne disk apart _

/-- A write behind the end of a file appends, with zeros in between. -/
theorem contents_write_self (disk : Disk) (handle : Handle) (bytes : Bytes)
    (behind : (disk.contents handle.file).length ≤ handle.offset) :
    (disk.write handle bytes).2.contents handle.file = disk.contents handle.file ++
      List.replicate (handle.offset - (disk.contents handle.file).length) 0 ++ bytes := by
  have filled : (disk.contents handle.file ++
      List.replicate (handle.offset - (disk.contents handle.file).length) 0).length =
      handle.offset := by
    rw [List.length_append, List.length_replicate]
    omega
  have ended : (disk.contents handle.file).drop (handle.offset + bytes.length) = [] :=
    List.drop_eq_nil_of_le (by omega)
  rw [write, contents_put_self, List.take_of_length_le (Nat.le_of_eq filled), ended,
    List.append_nil]

end Disk

/-- What a file holds that was emptied when these bytes had been written, and written to since. -/
def remains (lost kept : Bytes) : Bytes :=
  if kept = [] then [] else List.replicate lost.length 0 ++ kept

theorem remains_nil (kept : Bytes) : remains [] kept = kept := by
  rw [remains]
  split
  · next none => exact none.symm
  · rfl

theorem length_remains_le (lost kept : Bytes) :
    (remains lost kept).length ≤ lost.length + kept.length := by
  rw [remains]
  split
  · exact Nat.zero_le _
  · exact Nat.le_of_eq (by rw [List.length_append, List.length_replicate])

theorem remains_append (lost kept : Bytes) {more : Bytes} (some : more ≠ []) :
    remains lost kept ++
      List.replicate (lost.length + kept.length - (remains lost kept).length) 0 ++ more =
        remains lost (kept ++ more) := by
  have written : kept ++ more ≠ [] := List.append_ne_nil_of_right_ne_nil kept some
  by_cases empty : kept = []
  · simp only [remains, empty, List.nil_append, List.length_nil, Nat.add_zero, Nat.sub_zero,
      if_true, if_neg some]
  · simp only [remains, if_neg empty, if_neg written, List.length_append, List.length_replicate,
      Nat.sub_self, List.replicate_zero, List.append_nil, List.append_assoc]

/-- Bytes that do not begin with a zero are still there only if none was lost. -/
theorem remains_eq_append_iff {lost kept : Bytes} (first : (lost ++ kept).head? ≠ some 0) :
    remains lost kept = lost ++ kept ↔ lost = [] := by
  constructor
  · intro same
    rw [remains] at same
    split at same
    · exact (List.append_eq_nil_iff.mp same.symm).1
    · have zeros := List.append_cancel_right same
      cases lost with
      | nil => rfl
      | cons byte lost =>
        have zero : byte = 0 := (List.cons.inj zeros).1.symm
        exact absurd (congrArg some zero) first
  · rintro rfl
    exact remains_nil kept

namespace Log

/-- The log writes behind all its lines to a file that was emptied when some of them were there. -/
structure Keeps (log : Log) (file : String) (lost kept : Bytes) : Prop where
  handle : log.handle = some ⟨file, lost.length + kept.length⟩
  contents : log.disk.contents file = remains lost kept

/-- A line begins with the name of its level. -/
theorem head?_encode_line (log : Log) (level : Level) (message : String) :
    ∃ byte, (Utf8.encode (log.line level message)).head? = some byte ∧ byte ≠ 0 := by
  rw [line]
  simp only [Utf8.encode_append, List.append_assoc]
  cases level with
  | warning => exact ⟨0x77, rfl, by decide⟩
  | error => exact ⟨0x65, rfl, by decide⟩

theorem encode_line_ne_nil (log : Log) (level : Level) (message : String) :
    Utf8.encode (log.line level message) ≠ [] := by
  obtain ⟨byte, first, -⟩ := log.head?_encode_line level message
  exact fun none => nomatch none ▸ first

section Keeps
variable {log : Log} {file : String} {lost kept : Bytes}

/-- Labels are no matter of the file. -/
theorem Keeps.relabelled {after : Log} (keeps : log.Keeps file lost kept)
    (handle : after.handle = log.handle) (disk : after.disk = log.disk) :
    after.Keeps file lost kept :=
  ⟨handle.trans keeps.handle, disk ▸ keeps.contents⟩

theorem Keeps.write (keeps : log.Keeps file lost kept) (level : Level) (message : String) :
    (log.write level message).Keeps file lost
      (kept ++ Utf8.encode (log.line level message)) := by
  have behind := keeps.contents ▸ length_remains_le lost kept
  have written := log.disk.contents_write_self ⟨file, lost.length + kept.length⟩
    (Utf8.encode (log.line level message)) behind
  rw [Log.write, keeps.handle]
  refine ⟨?_, ?_⟩
  · rw [List.length_append, ← Nat.add_assoc]
    rfl
  · rw [keeps.contents, remains_append lost kept (log.encode_line_ne_nil level message)] at written
    exact written

/-- The choice of a path that comes out at another file, or at none, leaves the file. -/
theorem Keeps.setFile_other (keeps : log.Keeps file lost kept) {path : String}
    (elsewhere : (log.disk.create path).1 ≠ some ⟨file, 0⟩) :
    (log.setFile path).2.Keeps file lost kept := by
  have effect := log.disk.create_effect path
  rw [setFile, keeps.handle]
  generalize log.disk.create path = created at effect elsewhere
  cases effect with
  | refused same => exact ⟨rfl, (congrFun same file).trans keeps.contents⟩
  | @emptied _ other _ others =>
    have apart : file ≠ other := fun same => elsewhere (same ▸ rfl)
    exact ⟨rfl, (others file apart).trans keeps.contents⟩

theorem Keeps.setFile_same (keeps : log.Keeps file lost kept) {path : String}
    (again : (log.disk.create path).1 = some ⟨file, 0⟩) :
    (log.setFile path).2.Keeps file (lost ++ kept) [] := by
  refine ⟨?_, Disk.contents_create again⟩
  rw [setFile, keeps.handle, List.length_append]
  rfl

/-- The first choice that comes out at a file. -/
theorem keeps_of_setFile {path : String} (unset : log.handle = none)
    (opened : (log.disk.create path).1 = some ⟨file, 0⟩) :
    (log.setFile path).2.Keeps file [] [] := by
  refine ⟨?_, Disk.contents_create opened⟩
  rw [setFile, unset]
  exact opened

end Keeps
end Log

end SeriesClient.Journal
