import Mathlib
import SeriesClient.Journal.Report
import SeriesClient.Proofs.Journal.Contents
import SeriesClient.Proofs.Journal.Thread
import SeriesClient.Proofs.Paging.Deeds

/-! A thread at work with its cursors. It nests labels, says things and calls cursors in between.
Each line of the log carries the labels that are alive then, and a line of a cursor the label of its
query in addition. -/
namespace SeriesClient.Journal
open Paging Wire

/-- A line in its parts; labels stand outermost first. -/
structure Entry where
  labels : List String
  level : Level
  message : String

namespace Entry

def text (entry : Entry) : String :=
  let level := match entry.level with
    | .warning => "warning"
    | .error => "error"
  level ++ ": " ++
    entry.labels.foldr (fun label rest => label ++ ": " ++ rest) entry.message ++ "\n"

def bytes (entry : Entry) : Bytes := Utf8.encode entry.text

/-- The entry of a notice from a cursor, under the label of its query in addition. -/
def ofNotice (labels : List String) (queryId : Int64) (notice : Notice) : Entry :=
  ⟨labels ++ [Log.queryLabel queryId], notice.level, notice.text⟩

/-- The line that a thing done by a cursor is worth: a warning for a page that was refused, an error
for a row that does not decode. -/
def ofDeed? (labels : List String) (queryId : Int64) (deed : Deed) : Option Entry :=
  let labels := labels ++ ["query " ++ toString queryId.toInt]
  match deed with
  | .asked exchange => exchange.refusal?.map fun e =>
    ⟨labels, .warning, "failed to fetch page: " ++ e.message⟩
  | .decoded place (.error e) =>
    some ⟨labels, .error, s!"row {place} failed to decode: {e.message}"⟩
  | .decoded _ (.ok _) => none

theorem map_ofNotice (labels : List String) (queryId : Int64) (deeds : List Deed) :
    (deeds.filterMap Deed.notice?).map (ofNotice labels queryId) =
      deeds.filterMap (ofDeed? labels queryId) := by
  rw [List.map_filterMap]
  refine List.filterMap_congr fun deed _ => ?_
  rcases deed with exchange | ⟨place, e | row⟩
  · exact Option.map_map ..
  · rfl
  · rfl

end Entry

/-- A chain before a message is the message with one label after the other before it. -/
theorem exists_chain (outer : String) (labels : List String) (message : String) :
    ∃ label, chain (some outer) labels = some label ∧ label ++ ": " ++ message =
      outer ++ ": " ++ labels.foldr (fun label rest => label ++ ": " ++ rest) message := by
  induction labels generalizing outer with
  | nil => exact ⟨outer, rfl, rfl⟩
  | cons inner labels ih =>
    obtain ⟨label, chained, same⟩ := ih (outer ++ ": " ++ inner)
    refine ⟨label, chained, same.trans ?_⟩
    simp only [List.foldr_cons, String.append_assoc]

namespace Log

theorem line_eq_text {log : Log} {labels : List String} (label : log.label = chain none labels)
    (level : Level) (message : String) :
    log.line level message = Entry.text ⟨labels, level, message⟩ := by
  cases labels with
  | nil =>
    rw [line, label]
    cases level <;> rfl
  | cons outer labels =>
    obtain ⟨whole, chained, same⟩ := exists_chain outer labels message
    have label : log.label = some whole := label.trans chained
    rw [line, label, Entry.text, List.foldr_cons, ← same]
    cases level <;> rfl

example : (Entry.mk ["s", "query 7"] .error "m").text = "error: s: query 7: m\n" := by decide

/-- Reporting leaves the label as it found it. -/
theorem label_report (queryId : Int64) (notices : List Notice) (log : Log) :
    (log.report queryId notices).label = log.label := by
  induction notices generalizing log with
  | nil => rfl
  | cons notice notices ih => exact ih (log.note queryId notice)

theorem handle_write_of_unset {log : Log} (unset : log.handle = none) (level : Level)
    (message : String) : (log.write level message).handle = none := by
  rw [write, unset]
  exact unset

theorem handle_report_of_unset {log : Log} (unset : log.handle = none) (queryId : Int64)
    (notices : List Notice) : (log.report queryId notices).handle = none := by
  induction notices generalizing log with
  | nil => exact unset
  | cons notice notices ih =>
    have pushed : (log.push (queryLabel queryId)).2.handle = none := unset
    exact ih (handle_write_of_unset pushed notice.level notice.text)

theorem Keeps.note {log : Log} {file : String} {lost kept : Bytes} {labels : List String}
    (keeps : log.Keeps file lost kept) (label : log.label = chain none labels) (queryId : Int64)
    (notice : Notice) : (log.note queryId notice).Keeps file lost
      (kept ++ (Entry.ofNotice labels queryId notice).bytes) := by
  have pushed : (log.push (queryLabel queryId)).2.Keeps file lost kept := keeps.relabelled rfl rfl
  have nested : (log.push (queryLabel queryId)).2.label =
      chain none (labels ++ [queryLabel queryId]) := by
    rw [label_push, label, chain_concat]
  have written := pushed.write notice.level notice.text
  rw [line_eq_text nested] at written
  exact written.relabelled rfl rfl

theorem Keeps.report {log : Log} {file : String} {lost kept : Bytes} {labels : List String}
    (keeps : log.Keeps file lost kept) (label : log.label = chain none labels) (queryId : Int64)
    (notices : List Notice) : (log.report queryId notices).Keeps file lost
      (kept ++ (notices.map (Entry.ofNotice labels queryId)).flatMap Entry.bytes) := by
  induction notices generalizing log kept with
  | nil => exact (List.append_nil kept).symm ▸ keeps
  | cons notice notices ih =>
    rw [List.map_cons, List.flatMap_cons, ← List.append_assoc]
    exact ih (keeps.note label queryId notice) label

end Log

/-- A thread and its cursors, which may read from sources of any kinds. -/
structure Desk {ι : Type} (σ : ι → Type) where
  thread : Thread
  sessions : (i : ι) → Session (σ i)

namespace Desk
variable {ι : Type} [DecidableEq ι] {σ : ι → Type} [∀ i, PageSource (σ i)]

/-- The desk after a call on one cursor that reported these notices. -/
def called (desk : Desk σ) (i : ι) (after : Session (σ i)) (notices : List Notice) : Desk σ where
  thread := { desk.thread with
    log := desk.thread.log.report (desk.sessions i).cursor.queryId notices }
  sessions := Function.update desk.sessions i after

/-- The entry of a notice from a cursor, under the labels that are alive. -/
def entry (desk : Desk σ) (i : ι) (notice : Notice) : Entry :=
  .ofNotice desk.thread.live (desk.sessions i).cursor.queryId notice

/-- What a thread does that nests its labels, with the entries that it makes. -/
inductive Step : Desk σ → List Entry → Desk σ → Prop
  | push (desk : Desk σ) (label : String) :
      Step desk [] { desk with thread := desk.thread.push label }
  | drop {desk : Desk σ} {number : Nat} (inner : desk.thread.Innermost number) :
      Step desk [] { desk with thread := desk.thread.drop number }
  | say (desk : Desk σ) (level : Level) (message : String) :
      Step desk [⟨desk.thread.live, level, message⟩]
        { desk with thread := desk.thread.act (.say level message) }
  | call {desk : Desk σ} {i : ι} {after : Session (σ i)} {notices : List Notice}
      (step : (desk.sessions i).Step after)
      (noted : after.notices = (desk.sessions i).notices ++ notices) :
      Step desk (notices.map (desk.entry i)) (desk.called i after notices)

/-- A thread without labels and without a file, and cursors just opened. -/
structure Fresh (desk : Desk σ) : Prop where
  label : desk.thread.log.label = none
  guards : desk.thread.guards = []
  handle : desk.thread.log.handle = none
  opened : ∀ i, ∃ source queryId paths types options values bitmaps,
    Cursor.withPage source queryId paths types options values bitmaps =
      .ok (desk.sessions i).cursor

/-- What holds at every time of the work. -/
structure Sound (desk : Desk σ) : Prop where
  ordered : desk.thread.Ordered none
  coherent : ∀ i, (desk.sessions i).cursor.Coherent

omit [DecidableEq ι] [∀ i, PageSource (σ i)] in
theorem Fresh.sound {desk : Desk σ} (fresh : desk.Fresh) : desk.Sound := by
  refine ⟨?_, fun i => ?_⟩
  · have ordered := Thread.Ordered.fresh desk.thread.log
    rw [fresh.label, ← fresh.guards] at ordered
    exact ordered
  · obtain ⟨_, _, _, _, _, _, _, opened⟩ := fresh.opened i
    exact Cursor.withPage_coherent opened

theorem Step.sound {desk after : Desk σ} {entries : List Entry} (step : Step desk entries after)
    (sound : desk.Sound) : after.Sound := by
  cases step with
  | push label => exact ⟨sound.ordered.push label, sound.coherent⟩
  | drop inner => exact ⟨sound.ordered.drop inner, sound.coherent⟩
  | say level message => exact ⟨sound.ordered.withLog (Log.label_write ..), sound.coherent⟩
  | @call i next notices step noted =>
    refine ⟨sound.ordered.withLog (Log.label_report ..), fun j => ?_⟩
    rcases eq_or_ne j i with rfl | other
    · have here : (desk.called j next notices).sessions j = next := Function.update_self ..
      rw [here]
      exact (step.moves (sound.coherent j)).coherent (sound.coherent j)
    · have elsewhere : (desk.called i next notices).sessions j = desk.sessions j :=
        Function.update_of_ne other ..
      rw [elsewhere]
      exact sound.coherent j

theorem Step.unset {desk after : Desk σ} {entries : List Entry} (step : Step desk entries after)
    (unset : desk.thread.log.handle = none) : after.thread.log.handle = none := by
  cases step with
  | push label => exact unset
  | @drop number inner => exact (desk.thread.handle_drop number).trans unset
  | say level message => exact Log.handle_write_of_unset unset level message
  | call step noted => exact Log.handle_report_of_unset unset _ _

/-- Each step adds its entries to the file. -/
theorem Step.keeps {desk after : Desk σ} {entries : List Entry} {file : String}
    {lost kept : Bytes} (step : Step desk entries after) (sound : desk.Sound)
    (keeps : desk.thread.log.Keeps file lost kept) : after.thread.log.Keeps file lost
      (kept ++ entries.flatMap Entry.bytes) := by
  cases step with
  | push label => exact (List.append_nil kept).symm ▸ keeps.relabelled rfl rfl
  | @drop number inner =>
    rw [List.flatMap_nil, List.append_nil]
    exact keeps.relabelled (desk.thread.handle_drop number) (desk.thread.disk_drop number)
  | say level message =>
    rw [List.flatMap_singleton, Entry.bytes, ← Log.line_eq_text sound.ordered.label]
    exact keeps.write level message
  | call step noted => exact keeps.report sound.ordered.label _ _

theorem run_keeps {desk after : Desk σ} {entries : List Entry} {file : String}
    {lost kept : Bytes} (run : Traced Step desk entries after) (sound : desk.Sound)
    (keeps : desk.thread.log.Keeps file lost kept) : after.thread.log.Keeps file lost
      (kept ++ entries.flatMap Entry.bytes) := by
  induction run generalizing kept with
  | refl => exact (List.append_nil kept).symm ▸ keeps
  | next head tail ih =>
    rw [List.flatMap_append, ← List.append_assoc]
    exact ih (head.sound sound) (head.keeps sound keeps)

/-- The desk with a file chosen for the log. -/
def choose (desk : Desk σ) (path : String) : Desk σ :=
  { desk with thread := desk.thread.act (.choose path) }

/-- What a log tells of the work at a desk. -/
structure Told (file : String) (entries : List Entry) (desk : Desk σ) : Prop where
  /-- The file holds the entries, line by line. -/
  contents : desk.thread.log.disk.contents file = entries.flatMap Entry.bytes
  /-- The next line would carry the labels that are alive. -/
  label : desk.thread.log.label = chain none desk.thread.live
  /-- A call on a cursor makes an entry for each thing it does that fails, no other, and leaves the
  label as it found it. -/
  calls : ∀ i (after : Session (σ i)), (desk.sessions i).Step after → ∃ deeds,
    (desk.sessions i).Recounts after deeds ∧
    Step desk (deeds.filterMap (Entry.ofDeed? desk.thread.live (desk.sessions i).cursor.queryId))
      (desk.called i after (deeds.filterMap Deed.notice?)) ∧
    (desk.called i after (deeds.filterMap Deed.notice?)).thread.log.label = desk.thread.log.label

theorem work_told {start mid after : Desk σ} {earlier entries : List Entry} {path file : String}
    (fresh : start.Fresh) (before : Traced Step start earlier mid)
    (opened : mid.thread.Opens path file) (run : Traced Step (mid.choose path) entries after) :
    Told file entries after := by
  have sound : mid.Sound := before.keeps (P := Sound) Step.sound fresh.sound
  have unset : mid.thread.log.handle = none :=
    before.keeps (P := fun desk => desk.thread.log.handle = none) Step.unset fresh.handle
  have chosen : (mid.choose path).Sound := ⟨sound.ordered.withLog rfl, sound.coherent⟩
  have ended : after.Sound := run.keeps (P := Sound) Step.sound chosen
  have keeps := run_keeps run chosen (Log.keeps_of_setFile unset opened)
  refine ⟨?_, ended.ordered.label, fun i next step => ?_⟩
  · rw [keeps.contents, remains_nil, List.nil_append]
  · obtain ⟨deeds, recounts⟩ := step.recounts (ended.coherent i)
    have made : (deeds.filterMap Deed.notice?).map (after.entry i) = deeds.filterMap
        (Entry.ofDeed? after.thread.live (after.sessions i).cursor.queryId) :=
      Entry.map_ofNotice ..
    exact ⟨deeds, recounts, made ▸ .call step recounts.notices, Log.label_report ..⟩

/-- A fetch that fails, then a page with a row that is cut short. -/
def faltering : Script where
  pages := [.error (.transport "down"), .ok ⟨[[]], [[1]], false⟩]
  closings := []

/-- A thread with one cursor over it. -/
def faltered : Desk fun _ : Unit => Script where
  thread := ⟨{}, []⟩
  sessions _ :=
    { cursor :=
        { source := ⟨faltering, []⟩, queryId := 7, options := {}, paths := ["pump"],
          types := [.boolean], values := [], bitmaps := [] } }

def labelled : Desk fun _ : Unit => Script :=
  { faltered with thread := faltered.thread.push "s" }

/-- A line of the thread, then one of the cursor, and another one of it under a second label. -/
def mixed : List Entry :=
  [⟨["s"], .warning, "m"⟩, .ofNotice ["s"] 7 (.fetchFailed (.transport "down")),
    .ofNotice ["s", "t"] 7 (.rowDamaged 0 (.corrupted (.cell 0 0) (.shortRead 1 0 0)))]

theorem labelled_told : faltered.Fresh ∧ Traced Step faltered [] labelled ∧
    labelled.thread.Opens "log" "/log" ∧
    ∃ after, Traced Step (labelled.choose "log") mixed after ∧ Told "/log" mixed after := by
  have fresh : faltered.Fresh :=
    ⟨rfl, rfl, rfl, fun _ => ⟨⟨faltering, []⟩, 7, ["pump"], [.boolean], {}, [], [], rfl⟩⟩
  have before : Traced Step faltered [] labelled := .single (.push faltered "s")
  have opened : labelled.thread.Opens "log" "/log" := by
    rw [Thread.Opens]
    cbv
  have run := Traced.next (Step.say (labelled.choose "log") .warning "m")
    (.next (@Step.call _ _ _ _ _ () _ [.fetchFailed (.transport "down")] (.tryNext _) rfl)
    (.next (.push _ "t")
    (.next (@Step.call _ _ _ _ _ () _ [.rowDamaged 0 (.corrupted (.cell 0 0) (.shortRead 1 0 0))]
      (.tryNext _) rfl)
    (.single (@Step.drop _ _ _ _ _ 1 ⟨⟨_, rfl⟩, fun later held alive =>
      Nat.le_of_lt_succ (List.getElem?_eq_some_iff.mp alive).1⟩)))))
  exact ⟨fresh, before, opened, _, run, work_told fresh before opened run⟩

end Desk
end SeriesClient.Journal
