import SeriesClient.Proofs.Journal.Thread

/-! Guards dropped in any order. A guard puts back the label that it was made under, so the guard
that is dropped last decides which label stays behind when none is alive. That is the label from the
start when in each stretch the guard made first goes last, and not in general. -/
namespace SeriesClient.Journal.Thread

/-- The guard with this number was made right behind the acts `made` of a run. -/
structure MadeAfter (start : Thread) (made : List Act) (number : Nat) (acts : List Act) : Prop where
  pushed : ∃ label, made ++ [.push label] <+: acts
  number : (start.run made).guards.length = number

/-- The guard with this number was dropped right behind the acts `prior` of a run. Since then none
was made or dropped. -/
structure DroppedLast (start : Thread) (prior : List Act) (number : Nat) (acts : List Act) :
    Prop where
  dropped : prior ++ [.drop number] <+: acts
  alive : ∃ held, (start.run prior).Alive number held
  last : (start.run acts).guards = (start.run (prior ++ [.drop number])).guards

/-- A drop that leaves no guard alive takes one that was made when none was. -/
def OutermostLast (start : Thread) (acts : List Act) : Prop :=
  ∀ made prior number, start.MadeAfter made number prior → prior ++ [.drop number] <+: acts →
    (∃ held, (start.run prior).Alive number held) →
    (start.run (prior ++ [.drop number])).live = [] → (start.run made).live = []

/-- Guards are dropped innermost first. -/
def Nested (start : Thread) (acts : List Act) : Prop :=
  ∀ prior number, prior ++ [.drop number] <+: acts → (start.run prior).Innermost number

theorem MadeAfter.concat {start : Thread} {made acts : List Act} {number : Nat}
    (origin : start.MadeAfter made number acts) (last : Act) :
    start.MadeAfter made number (acts ++ [last]) := by
  obtain ⟨label, pushed⟩ := origin.pushed
  exact ⟨⟨label, pushed.trans (List.prefix_append acts [last])⟩, origin.number⟩

theorem MadeAfter.isPrefix {start : Thread} {made acts : List Act} {number : Nat}
    (origin : start.MadeAfter made number acts) : made <+: acts := by
  obtain ⟨label, pushed⟩ := origin.pushed
  exact (List.prefix_append made _).trans pushed

theorem MadeAfter.length_lt {start : Thread} {made acts : List Act} {number : Nat}
    (origin : start.MadeAfter made number acts) : made.length < acts.length := by
  obtain ⟨label, pushed⟩ := origin.pushed
  have shorter := pushed.length_le
  rw [List.length_append, List.length_singleton] at shorter
  exact shorter

theorem DroppedLast.isPrefix {start : Thread} {prior acts : List Act} {number : Nat}
    (drop : start.DroppedLast prior number acts) : prior <+: acts :=
  (List.prefix_append prior _).trans drop.dropped

/-- How the label comes about that a run leaves behind when no guard is alive. -/
inductive LeftBy (start : Thread) (acts : List Act) : Prop
  /-- No label was ever set. -/
  | untouched (none : (start.run acts).guards = [])
      (label : (start.run acts).log.label = start.log.label)
  /-- The guard that was dropped last put back the label that it was made under. -/
  | last {prior made : List Act} {number : Nat} (drop : start.DroppedLast prior number acts)
      (origin : start.MadeAfter made number prior)
      (label : (start.run acts).log.label = (start.run made).log.label)

theorem LeftBy.concat {start : Thread} {acts : List Act} {last : Act} (left : start.LeftBy acts)
    (guards : (start.run (acts ++ [last])).guards = (start.run acts).guards)
    (label : (start.run (acts ++ [last])).log.label = (start.run acts).log.label) :
    start.LeftBy (acts ++ [last]) := by
  cases left with
  | untouched none same => exact .untouched (guards.trans none) (label.trans same)
  | last drop origin same =>
    have kept : start.DroppedLast _ _ (acts ++ [last]) :=
      ⟨drop.dropped.trans (List.prefix_append acts [last]), drop.alive, guards.trans drop.last⟩
    exact .last kept origin (label.trans same)

variable (log : Log)

/-- A guard that is alive keeps the label that was set when it was made. -/
theorem exists_made (acts : List Act) {number : Nat} {held : Held}
    (alive : ((mk log []).run acts).Alive number held) :
    ∃ made, (mk log []).MadeAfter made number acts ∧
      held.guard.previous = ((mk log []).run made).log.label := by
  induction acts using List.reverseRecOn with
  | nil => exact absurd (List.getElem?_nil.symm.trans alive) nofun
  | append_singleton acts last ih =>
    have earlier (alive : ((mk log []).run acts).Alive number held) :
        ∃ made, (mk log []).MadeAfter made number (acts ++ [last]) ∧
          held.guard.previous = ((mk log []).run made).log.label := by
      obtain ⟨made, origin, kept⟩ := ih alive
      exact ⟨made, origin.concat last, kept⟩
    rw [run_concat] at alive
    cases last with
    | push label =>
      rcases alive_push alive with ⟨-, alive⟩ | ⟨rfl, rfl⟩
      · exact earlier alive
      · exact ⟨acts, ⟨⟨label, List.prefix_rfl⟩, rfl⟩, rfl⟩
    | drop other =>
      have effect := drop_effect ((mk log []).run acts) other
      rw [act] at alive
      generalize ((mk log []).run acts).drop other = after at effect alive
      cases effect with
      | putsBack => exact earlier (alive_set alive).2
      | nothing => exact earlier alive
    | say level message => exact earlier alive
    | choose path => exact earlier alive

theorem leftBy_of_none_alive (acts : List Act) (none : ((mk log []).run acts).live = []) :
    (mk log []).LeftBy acts := by
  induction acts using List.reverseRecOn with
  | nil => exact .untouched rfl rfl
  | append_singleton acts last ih =>
    have ran := run_concat (mk log []) acts last
    -- An act that is neither a push nor a drop of a guard that is alive leaves all as it was.
    have quiet (guards : ((mk log []).run (acts ++ [last])).guards = ((mk log []).run acts).guards)
        (label : ((mk log []).run (acts ++ [last])).log.label = ((mk log []).run acts).log.label) :
        (mk log []).LeftBy (acts ++ [last]) := by
      rw [live, guards] at none
      exact (ih none).concat guards label
    cases last with
    | push label =>
      rw [ran, act, live_push] at none
      exact absurd none (List.append_ne_nil_of_right_ne_nil _ (List.cons_ne_nil _ _))
    | drop number =>
      have effect := drop_effect ((mk log []).run acts) number
      have dropped : (mk log []).run (acts ++ [.drop number]) =
        ((mk log []).run acts).drop number := ran
      generalize after : ((mk log []).run acts).drop number = last at effect dropped
      cases effect with
      | @putsBack held alive =>
        obtain ⟨made, origin, kept⟩ := exists_made log acts alive
        exact .last ⟨List.prefix_rfl, ⟨held, alive⟩, rfl⟩ origin (by rw [dropped]; exact kept)
      | nothing => exact quiet (by rw [dropped]) (by rw [dropped])
    | say level message => exact quiet (by rw [ran]; rfl) (by rw [ran]; exact Log.label_write ..)
    | choose path => exact quiet (by rw [ran]; rfl) (by rw [ran]; rfl)

theorem label_of_outermostLast (acts : List Act) (outermost : (mk log []).OutermostLast acts)
    (none : ((mk log []).run acts).live = []) : ((mk log []).run acts).log.label = log.label := by
  -- The guard dropped last was made earlier in the run, at a time with no guard alive either.
  induction size : acts.length using Nat.strongRecOn generalizing acts with
  | _ length ih =>
    cases leftBy_of_none_alive log acts none with
    | untouched none label => exact label
    | @last prior made number drop origin label =>
      have ended : ((mk log []).run (prior ++ [.drop number])).live = [] := by
        rwa [live, ← drop.last]
      have clear := outermost made prior number origin drop.dropped drop.alive ended
      have shorter : made.length < length :=
        size ▸ Nat.lt_of_lt_of_le origin.length_lt drop.isPrefix.length_le
      have outermost : (mk log []).OutermostLast made := fun _ _ _ origin' dropped =>
        outermost _ _ _ origin' (dropped.trans (origin.isPrefix.trans drop.isPrefix))
      exact label.trans (ih made.length shorter made outermost clear rfl)

theorem ordered_of_nested (acts : List Act) (nested : (mk log []).Nested acts) :
    Ordered log.label ((mk log []).run acts) := by
  induction acts using List.reverseRecOn with
  | nil => exact .fresh log
  | append_singleton acts last ih =>
    have ordered := ih fun prior number dropped =>
      nested prior number (dropped.trans (List.prefix_append acts [last]))
    rw [run_concat]
    cases last with
    | push label => exact ordered.push label
    | drop number => exact ordered.drop (nested acts number List.prefix_rfl)
    | say level message => exact ordered.withLog (Log.label_write ..)
    | choose path => exact ordered.withLog rfl

/-- What guards dropped in any order make of the label of a log. -/
structure PutsBack (log : Log) (acts : List Act) : Prop where
  /-- A guard that is dropped puts back the label that it was made under. -/
  drops : ∀ number held, ((mk log []).run acts).Alive number held →
    ∃ made, (mk log []).MadeAfter made number acts ∧
      (((mk log []).run acts).drop number).log.label = ((mk log []).run made).log.label
  /-- With none alive, the guard dropped last has decided. -/
  decided : ((mk log []).run acts).live = [] → (mk log []).LeftBy acts
  /-- Nothing stays behind when the guard that was made first goes last. -/
  outermost : (mk log []).OutermostLast acts → ((mk log []).run acts).live = [] →
    ((mk log []).run acts).log.label = log.label
  /-- Dropped innermost first, guards leave the labels of those that are alive. -/
  nested : (mk log []).Nested acts →
    ((mk log []).run acts).log.label = chain log.label ((mk log []).run acts).live

theorem guards_put_back (acts : List Act) : PutsBack log acts where
  drops number held alive := by
    obtain ⟨made, origin, kept⟩ := exists_made log acts alive
    rw [drop_of_alive alive]
    exact ⟨made, origin, kept⟩
  decided := leftBy_of_none_alive log acts
  outermost := label_of_outermostLast log acts
  nested nested := (ordered_of_nested log acts nested).label

/-- Two guards dropped in the order in which they were made. -/
def crossed : List Act := [.push "a", .push "b", .drop 0, .drop 1]

/-- The label of the first one stays behind, and the next line carries it. -/
theorem crossed_leaves_label : ((mk {} []).run crossed).live = [] ∧
    ((mk {} []).run crossed).log.label ≠ (mk {} []).log.label ∧
    ((mk {} []).run crossed).log.line .warning "m" = "warning: a: m\n" := by
  decide

end SeriesClient.Journal.Thread
