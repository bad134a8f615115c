import Mathlib
import SeriesClient.Proofs.Journal.Contents
import SeriesClient.Proofs.Journal.Thread

/-! The file that was chosen first takes all lines, at one offset that only grows. A later choice
that comes out at the same file empties it all the same: what was said before is lost, and the next
line goes behind as many zeros. -/
namespace SeriesClient.Journal
open Wire

namespace Thread

/-- The line that an act says, if it says one. -/
def spoken (thread : Thread) : Act → List String
  | .say level message => [thread.log.line level message]
  | _ => []

/-- Lines said in a run. -/
def lines (thread : Thread) : List Act → List String
  | [] => []
  | act :: acts => thread.spoken act ++ lines (thread.act act) acts

/-- The same as bytes. -/
def written (thread : Thread) (acts : List Act) : Bytes :=
  (thread.lines acts).flatMap Utf8.encode

/-- No choice in a run comes out at this file. -/
def NeverOpens (thread : Thread) (file : String) (acts : List Act) : Prop :=
  ∀ before path, before ++ [.choose path] <+: acts → ¬ (thread.run before).Opens path file

/-- In a run, the file is opened again when something has been said. -/
def OpenedAgain (thread : Thread) (file : String) (acts : List Act) : Prop :=
  ∃ before path, before ++ [.choose path] <+: acts ∧ (thread.run before).Opens path file ∧
    thread.lines before ≠ []

theorem lines_append (thread : Thread) (acts more : List Act) :
    thread.lines (acts ++ more) = thread.lines acts ++ (thread.run acts).lines more := by
  induction acts generalizing thread with
  | nil => rfl
  | cons act acts ih =>
    rw [List.cons_append, lines, lines, ih, List.append_assoc]
    rfl

theorem written_append (thread : Thread) (acts more : List Act) :
    thread.written (acts ++ more) = thread.written acts ++ (thread.run acts).written more := by
  rw [written, lines_append, List.flatMap_append]
  rfl

theorem lines_cases (thread : Thread) (acts : List Act) : thread.lines acts = [] ∨
    ∃ log level message others, thread.lines acts = Log.line log level message :: others := by
  induction acts generalizing thread with
  | nil => exact .inl rfl
  | cons act acts ih =>
    cases act with
    | say level message => exact .inr ⟨thread.log, level, message, _, rfl⟩
    | push label => exact ih _
    | drop number => exact ih _
    | choose path => exact ih _

theorem written_cases (thread : Thread) (acts : List Act) :
    thread.lines acts = [] ∧ thread.written acts = [] ∨
      thread.lines acts ≠ [] ∧ ∃ byte, (thread.written acts).head? = some byte ∧ byte ≠ 0 := by
  rcases thread.lines_cases acts with none | ⟨log, level, message, others, said⟩
  · exact .inl ⟨none, by rw [written, none, List.flatMap_nil]⟩
  · obtain ⟨byte, first, letter⟩ := log.head?_encode_line level message
    refine .inr ⟨by rw [said]; exact List.cons_ne_nil _ _, byte, ?_, letter⟩
    rw [written, said, List.flatMap_cons, List.head?_append, first]
    rfl

theorem written_eq_nil_iff {thread : Thread} {acts : List Act} :
    thread.written acts = [] ↔ thread.lines acts = [] := by
  rcases thread.written_cases acts with ⟨none, empty⟩ | ⟨some, byte, first, -⟩
  · exact iff_of_true empty none
  · exact iff_of_false (fun empty => nomatch empty ▸ first) some

theorem head?_written (thread : Thread) (acts : List Act) :
    (thread.written acts).head? ≠ some 0 := by
  rcases thread.written_cases acts with ⟨-, empty⟩ | ⟨-, byte, first, letter⟩
  · rw [empty]
    exact nofun
  · rw [first]
    exact fun zero => letter (Option.some.inj zero)

theorem openedAgain_concat {thread : Thread} {file : String} {acts : List Act} {last : Act} :
    thread.OpenedAgain file (acts ++ [last]) ↔ thread.OpenedAgain file acts ∨
      ∃ path, last = .choose path ∧ (thread.run acts).Opens path file ∧ thread.lines acts ≠ [] := by
  constructor
  · rintro ⟨before, path, within, opens, said⟩
    rcases List.prefix_concat_iff.mp within with whole | earlier
    · obtain ⟨rfl, same⟩ := List.append_inj' whole rfl
      exact .inr ⟨path, (List.cons.inj same).1.symm, opens, said⟩
    · exact .inl ⟨before, path, earlier, opens, said⟩
  · rintro (⟨before, path, earlier, opens, said⟩ | ⟨path, rfl, opens, said⟩)
    · exact ⟨before, path, earlier.trans (List.prefix_append acts [last]), opens, said⟩
    · exact ⟨acts, path, List.prefix_rfl, opens, said⟩

theorem not_openedAgain_of_silent {thread : Thread} {file : String} {acts : List Act}
    (silent : thread.lines acts = []) : ¬ thread.OpenedAgain file acts := by
  rintro ⟨before, path, ⟨after, rfl⟩, -, said⟩
  rw [lines_append, lines_append, List.append_assoc] at silent
  exact said (List.append_eq_nil_iff.mp silent).1

/-- What an act does to the file of the log: it adds what it says, or it opens the file again and
all is lost. -/
inductive Affects (thread : Thread) (file : String) (lost kept : Bytes) : Act → Prop
  | adds {act : Act} (elsewhere : ∀ path, act = .choose path → ¬ thread.Opens path file)
      (keeps : (thread.act act).log.Keeps file lost (kept ++ thread.written [act])) :
      Affects thread file lost kept act
  | empties {path : String} (opens : thread.Opens path file)
      (keeps : (thread.act (.choose path)).log.Keeps file (lost ++ kept) []) :
      Affects thread file lost kept (.choose path)

theorem act_effect {thread : Thread} {file : String} {lost kept : Bytes}
    (keeps : thread.log.Keeps file lost kept) (act : Act) :
    thread.Affects file lost kept act := by
  cases act with
  | push label =>
    refine .adds nofun ?_
    rw [show thread.written [.push label] = [] from rfl, List.append_nil]
    exact keeps.relabelled rfl rfl
  | drop number =>
    refine .adds nofun ?_
    rw [show thread.written [.drop number] = [] from rfl, List.append_nil]
    exact keeps.relabelled (thread.handle_drop number) (thread.disk_drop number)
  | say level message =>
    refine .adds nofun ?_
    rw [written, lines, lines, List.append_nil, spoken, List.flatMap_singleton]
    exact keeps.write level message
  | choose path =>
    by_cases opens : thread.Opens path file
    · exact .empties opens (keeps.setFile_same opens)
    · refine .adds (fun _ same => by cases same; exact opens) ?_
      rw [show thread.written [.choose path] = [] from rfl, List.append_nil]
      exact keeps.setFile_other opens

/-- Bytes of the lines are lost when the file is opened again, and only then. -/
theorem exists_keeps {start : Thread} {file : String} (keeps : start.log.Keeps file [] [])
    (acts : List Act) : ∃ lost kept, (start.run acts).log.Keeps file lost kept ∧
      lost ++ kept = start.written acts ∧ (lost = [] ↔ ¬ start.OpenedAgain file acts) := by
  induction acts using List.reverseRecOn with
  | nil => exact ⟨[], [], keeps, rfl, iff_of_true rfl (not_openedAgain_of_silent rfl)⟩
  | append_singleton acts last ih =>
    obtain ⟨lost, kept, keeps, all, whole⟩ := ih
    rw [run_concat, written_append, ← all, openedAgain_concat, not_or, ← whole]
    cases act_effect keeps last with
    | adds elsewhere more =>
      refine ⟨lost, _, more, (List.append_assoc ..).symm, ⟨fun none => ⟨none, ?_⟩, And.left⟩⟩
      exact fun ⟨path, chosen, opens, _⟩ => elsewhere path chosen opens
    | @empties path opens none =>
      refine ⟨lost ++ kept, [], none, rfl, ?_⟩
      rw [all, written_eq_nil_iff]
      constructor
      · intro silent
        have empty : lost ++ kept = [] := all.trans (written_eq_nil_iff.mpr silent)
        exact ⟨(List.append_eq_nil_iff.mp empty).1, fun ⟨_, _, _, said⟩ => said silent⟩
      · intro ⟨_, never⟩
        exact by_contra fun said => never ⟨path, rfl, opens, said⟩

/-- A file that is not opened again takes all that is said. -/
theorem keeps_run {thread : Thread} {file : String} {lost kept : Bytes}
    (keeps : thread.log.Keeps file lost kept) (acts : List Act)
    (never : thread.NeverOpens file acts) :
    (thread.run acts).log.Keeps file lost (kept ++ thread.written acts) := by
  induction acts using List.reverseRecOn with
  | nil => rwa [show thread.written [] = [] from rfl, List.append_nil]
  | append_singleton acts last ih =>
    have before := ih fun before path within =>
      never before path (within.trans (List.prefix_append acts [last]))
    rw [run_concat, written_append, ← List.append_assoc]
    cases act_effect before last with
    | adds elsewhere more => exact more
    | empties opens => exact absurd opens (never acts _ List.prefix_rfl)

/-- What becomes of the lines of a run in the file that was chosen first. -/
structure Mirrored (start : Thread) (file : String) (acts : List Act) : Prop where
  /-- All lines go to that file, each behind those before it. -/
  handle : (start.run acts).log.handle = some ⟨file, (start.written acts).length⟩
  /-- The file holds them as long as it is not opened again behind one. -/
  exact_iff : (start.run acts).log.disk.contents file = start.written acts ↔
    ¬ start.OpenedAgain file acts
  /-- Opened again, it has lost the lines before. -/
  reopened : ∀ before path after, acts = before ++ .choose path :: after →
    (start.run before).Opens path file →
    ((start.run before).act (.choose path)).NeverOpens file after →
    (start.run acts).log.disk.contents file = remains (start.written before)
      (((start.run before).act (.choose path)).written after)
  /-- Any other file is emptied like it by a later choice. -/
  empties : ∀ path other, (start.run acts).Opens path other →
    ((start.run acts).act (.choose path)).log.disk.contents other = []

theorem mirrored_of_keeps {start : Thread} {file : String} (keeps : start.log.Keeps file [] [])
    (acts : List Act) : Mirrored start file acts := by
  refine ⟨?_, ?_, ?_, fun _ _ => Disk.contents_create⟩
  · obtain ⟨lost, kept, keeps, all, -⟩ := exists_keeps keeps acts
    rw [keeps.handle, ← all, List.length_append]
  · obtain ⟨lost, kept, keeps, all, whole⟩ := exists_keeps keeps acts
    have letter := head?_written start acts
    rw [← all] at letter
    rw [keeps.contents, ← all, remains_eq_append_iff letter, whole]
  · rintro before path after rfl opens never
    obtain ⟨lost, kept, keeps, all, -⟩ := exists_keeps keeps before
    have emptied : ((start.run before).act (.choose path)).log.Keeps file
        (start.written before) [] := all ▸ keeps.setFile_same opens
    have later := keeps_run emptied after never
    rw [List.nil_append] at later
    rw [List.append_cons, run_append, run_concat]
    exact later.contents

theorem lines_mirrored {thread : Thread} {path file : String} (unset : thread.log.handle = none)
    (opened : thread.Opens path file) (acts : List Act) :
    Mirrored (thread.act (.choose path)) file acts :=
  mirrored_of_keeps (Log.keeps_of_setFile unset opened) acts

/-- Two lines. In between the file of the log is chosen again, and another one below `c`. -/
def interrupted : List Act :=
  [.say .warning "a", .choose "log", .choose "c/x", .say .warning "b"]

theorem interrupted_mirrored : (Thread.mk {} []).log.handle = none ∧
    (Thread.mk {} []).Opens "log" "/log" ∧
    Mirrored ((Thread.mk {} []).act (.choose "log")) "/log" interrupted := by
  have opened : (Thread.mk {} []).Opens "log" "/log" := by
    rw [Opens]
    cbv
  exact ⟨rfl, opened, lines_mirrored rfl opened interrupted⟩

/-- Zeros stand in the place of the first line, and no file `c` can be created any more where a
directory was made. -/
theorem first_line_lost :
    ((Thread.mk {} []).act (.choose "log")).lines interrupted =
      ["warning: a\n", "warning: b\n"] ∧
    (((Thread.mk {} []).act (.choose "log")).run interrupted).log.disk.contents "/log" =
      List.replicate 11 0 ++ Utf8.encode "warning: b\n" ∧
    (((Thread.mk {} []).act (.choose "log")).log.setFile "c").1 = true ∧
    ((((Thread.mk {} []).act (.choose "log")).run interrupted).log.setFile "c").1 = false :=
  ⟨by cbv, by cbv, by cbv, by cbv⟩

end Thread
end SeriesClient.Journal
