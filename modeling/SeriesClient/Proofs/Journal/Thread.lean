import Mathlib.Data.List.Induction
import SeriesClient.Journal.Log

/-! A thread that logs. It sets labels, drops their guards in any order, says things and chooses
files. While guards are dropped innermost first, the label is the chain of the labels whose guards
are alive. -/
namespace SeriesClient.Journal

/-- What a thread does with its log. -/
inductive Act where
  | push (label : String)
  /-- Drops a guard, named by its number. -/
  | drop (number : Nat)
  | say (level : Level) (message : String)
  | choose (path : String)
deriving DecidableEq

/-- A label that was set, with the guard that puts back the one before. -/
structure Held where
  label : String
  guard : Guard
deriving DecidableEq

structure Thread where
  log : Log
  /-- Guards in the order in which they were made. One that was dropped is gone. -/
  guards : List (Option Held) := []
deriving DecidableEq

/-- Labels set one within the other, from a label that was there before. -/
def chain (base : Option String) (labels : List String) : Option String :=
  labels.foldl (fun outer label => some (match outer with
    | some outer => outer ++ ": " ++ label
    | none => label)) base

theorem chain_concat (base : Option String) (labels : List String) (label : String) :
    chain base (labels ++ [label]) = chain (chain base labels) [label] :=
  List.foldl_append

namespace Log

@[simp] theorem label_push (log : Log) (label : String) :
    (log.push label).2.label = chain log.label [label] := rfl

@[simp] theorem label_write (log : Log) (level : Level) (message : String) :
    (log.write level message).label = log.label := by
  rw [write]
  split <;> rfl

end Log

namespace Thread

def push (label : String) (thread : Thread) : Thread :=
  let (guard, log) := thread.log.push label
  ⟨log, thread.guards ++ [some ⟨label, guard⟩]⟩

def drop (number : Nat) (thread : Thread) : Thread :=
  match thread.guards[number]? with
  | some (some held) => ⟨thread.log.release held.guard, thread.guards.set number none⟩
  | _ => thread

def act (thread : Thread) : Act → Thread
  | .push label => thread.push label
  | .drop number => thread.drop number
  | .say level message => { thread with log := thread.log.write level message }
  | .choose path => { thread with log := (thread.log.setFile path).2 }

def run (thread : Thread) (acts : List Act) : Thread := acts.foldl act thread

theorem run_append (thread : Thread) (acts more : List Act) :
    thread.run (acts ++ more) = (thread.run acts).run more :=
  List.foldl_append

theorem run_concat (thread : Thread) (acts : List Act) (last : Act) :
    thread.run (acts ++ [last]) = (thread.run acts).act last :=
  run_append thread acts [last]

/-- Choosing this path opens this file. -/
def Opens (thread : Thread) (path file : String) : Prop :=
  (thread.log.disk.create path).1 = some ⟨file, 0⟩

instance (thread : Thread) (path file : String) : Decidable (thread.Opens path file) :=
  inferInstanceAs (Decidable ((thread.log.disk.create path).1 = some ⟨file, 0⟩))

/-- The guard with this number was not dropped yet. -/
def Alive (thread : Thread) (number : Nat) (held : Held) : Prop :=
  thread.guards[number]? = some (some held)

/-- Labels whose guards are alive, in the order in which they were set. -/
def live (thread : Thread) : List String :=
  (thread.guards.filterMap id).map Held.label

theorem live_eq_nil_iff {thread : Thread} :
    thread.live = [] ↔ ∀ number held, ¬ thread.Alive number held := by
  rw [live, List.map_eq_nil_iff, List.filterMap_eq_nil_iff]
  constructor
  · intro gone number held alive
    cases gone (some held) (List.mem_of_getElem? alive)
  · intro gone guard found
    obtain ⟨number, here⟩ := List.mem_iff_getElem?.mp found
    cases guard with
    | none => rfl
    | some held => exact absurd here (gone number held)

/-- No guard that is alive was made after the one with this number. -/
structure Innermost (thread : Thread) (number : Nat) : Prop where
  alive : ∃ held, thread.Alive number held
  last : ∀ later held, thread.Alive later held → later ≤ number

/-- What dropping a guard does: one that is alive puts back the label that it keeps. -/
inductive Drops (thread : Thread) (number : Nat) : Thread → Prop
  | putsBack {held : Held} (alive : thread.Alive number held) :
      Drops thread number ⟨thread.log.release held.guard, thread.guards.set number none⟩
  | nothing (gone : ∀ held, ¬ thread.Alive number held) : Drops thread number thread

theorem drop_effect (thread : Thread) (number : Nat) :
    thread.Drops number (thread.drop number) := by
  rw [drop]
  split
  · next held alive => exact .putsBack alive
  · next gone => exact .nothing gone

@[simp] theorem handle_drop (thread : Thread) (number : Nat) :
    (thread.drop number).log.handle = thread.log.handle := by
  rw [drop]
  split <;> rfl

@[simp] theorem disk_drop (thread : Thread) (number : Nat) :
    (thread.drop number).log.disk = thread.log.disk := by
  rw [drop]
  split <;> rfl

theorem drop_of_alive {thread : Thread} {number : Nat} {held : Held}
    (alive : thread.Alive number held) : thread.drop number =
      ⟨thread.log.release held.guard, thread.guards.set number none⟩ := by
  rw [drop, alive]

theorem alive_push {thread : Thread} {label : String} {number : Nat} {held : Held}
    (alive : (thread.push label).Alive number held) :
    number < thread.guards.length ∧ thread.Alive number held ∨
      number = thread.guards.length ∧ held = ⟨label, ⟨thread.log.label⟩⟩ := by
  have alive : (thread.guards ++ [some ⟨label, ⟨thread.log.label⟩⟩])[number]? =
    some (some held) := alive
  rcases Nat.lt_or_ge number thread.guards.length with earlier | new
  · rw [List.getElem?_append_left earlier] at alive
    exact .inl ⟨earlier, alive⟩
  · obtain ⟨within, -⟩ := List.getElem?_eq_some_iff.mp alive
    rw [List.length_append, List.length_singleton] at within
    have last : number = thread.guards.length := by omega
    rw [last, List.getElem?_concat_length] at alive
    exact .inr ⟨last, (Option.some.inj (Option.some.inj alive)).symm⟩

theorem alive_set {log : Log} {guards : List (Option Held)} {number other : Nat} {held : Held}
    (alive : (Thread.mk log (guards.set number none)).Alive other held) :
    number ≠ other ∧ guards[other]? = some (some held) := by
  have alive : (guards.set number none)[other]? = some (some held) := alive
  rw [List.getElem?_set] at alive
  split at alive
  · split at alive <;> cases alive
  · next apart => exact ⟨apart, alive⟩

theorem live_push (thread : Thread) (label : String) :
    (thread.push label).live = thread.live ++ [label] := by
  simp only [live, push, List.filterMap_append, List.map_append]
  rfl

/-- Behind the innermost guard there is none alive. -/
theorem Innermost.live_set {thread : Thread} {number : Nat} (inner : thread.Innermost number)
    (log : Log) : (Thread.mk log (thread.guards.set number none)).live =
      ((thread.guards.take number).filterMap id).map Held.label := by
  obtain ⟨_, alive⟩ := inner.alive
  obtain ⟨within, -⟩ := List.getElem?_eq_some_iff.mp alive
  have gone : (thread.guards.drop (number + 1)).filterMap id = [] := by
    refine List.filterMap_eq_nil_iff.mpr fun guard found => ?_
    obtain ⟨place, here⟩ := List.mem_iff_getElem?.mp found
    rw [List.getElem?_drop] at here
    cases guard with
    | none => rfl
    | some other => exact absurd (inner.last _ other here) (by omega)
  rw [live, List.set_eq_take_append_cons_drop, if_pos within, List.filterMap_append,
    List.filterMap_cons_none rfl, gone, List.append_nil]

/-- The label is the chain of those that are alive, and each guard that is alive keeps the chain
of those before its own. -/
structure Ordered (base : Option String) (thread : Thread) : Prop where
  label : thread.log.label = chain base thread.live
  kept : ∀ number held, thread.Alive number held → held.guard.previous =
    chain base (((thread.guards.take number).filterMap id).map Held.label)

theorem Ordered.fresh (log : Log) : Ordered log.label ⟨log, []⟩ :=
  ⟨rfl, fun _ _ alive => absurd (List.getElem?_nil.symm.trans alive) nofun⟩

variable {base : Option String} {thread : Thread}

theorem Ordered.withLog (ordered : Ordered base thread) {log : Log}
    (same : log.label = thread.log.label) : Ordered base { thread with log } :=
  ⟨same.trans ordered.label, ordered.kept⟩

theorem Ordered.push (ordered : Ordered base thread) (label : String) :
    Ordered base (thread.push label) := by
  refine ⟨?_, fun number held alive => ?_⟩
  · rw [live_push, chain_concat, ← ordered.label]
    rfl
  · have guards : (thread.push label).guards =
      thread.guards ++ [some ⟨label, ⟨thread.log.label⟩⟩] := rfl
    rw [guards]
    rcases alive_push alive with ⟨earlier, alive⟩ | ⟨rfl, rfl⟩
    · rw [List.take_append_of_le_length (Nat.le_of_lt earlier)]
      exact ordered.kept number held alive
    · rw [List.take_left]
      exact ordered.label

/-- Dropping the innermost guard leaves the labels outside of it. -/
theorem Ordered.drop (ordered : Ordered base thread) {number : Nat}
    (inner : thread.Innermost number) : Ordered base (thread.drop number) := by
  obtain ⟨held, alive⟩ := inner.alive
  rw [drop_of_alive alive]
  refine ⟨?_, fun other still there => ?_⟩
  · rw [inner.live_set]
    exact ordered.kept number held alive
  · obtain ⟨-, there⟩ := alive_set there
    rw [List.take_set_of_le (inner.last other still there)]
    exact ordered.kept other still there

end Thread
end SeriesClient.Journal
