import Coordination.Proofs.Dispatch.Halves

namespace Coordination

-- A dispatcher, and the handlers that are running, the innermost first.
structure Activity (η : Type) where
  dispatcher : Dispatcher η
  running : List (Invocation η)

namespace Activity

inductive Move (η : Type)
  | allocate (completion watcher : Option (Entry η))
  | discard (id : RequestId)
  | discardWatcher (id : RequestId)
  | clear (global : Entry η)
  | dispatch (event : Event)
  -- The innermost handler ends.
  | finish (outcome : Outcome)

variable {η : Type} {a : Activity η} {m : Move η} {ms : List (Move η)} {s : Slot}

def empty : Activity η :=
  ⟨⟨.empty, {}⟩, []⟩

abbrev registry (a : Activity η) : Registry η :=
  a.dispatcher.registry

def withRegistry (f : Registry η → Registry η) (a : Activity η) : Activity η :=
  { a with dispatcher.registry := f a.registry }

-- The handler that a move calls.
def called (a : Activity η) : Move η → Option (Invocation η)
  | .dispatch event => (a.dispatcher.start event).1
  | _ => none

def step (a : Activity η) : Move η → Activity η
  | .allocate c w => a.withRegistry fun r => (r.allocate c w).2
  | .discard id => a.withRegistry (·.discard id)
  | .discardWatcher id => a.withRegistry (·.discardWatcher id)
  | .clear global => a.withRegistry fun r => (r.clear global).2
  | .dispatch event =>
    ⟨(a.dispatcher.start event).2, (a.dispatcher.start event).1.toList ++ a.running⟩
  | .finish outcome =>
    match a.running with
    | [] => a
    | i :: rest => ⟨a.dispatcher.finish i outcome, rest⟩

section

variable {c w : Option (Entry η)} {id : RequestId} {e : Entry η} {event : Event} {o : Outcome}
  {i : Invocation η} {rest : List (Invocation η)}

@[simp] theorem registry_allocate :
    (a.step (.allocate c w)).registry = (a.registry.allocate c w).2 :=
  rfl

@[simp] theorem registry_discard : (a.step (.discard id)).registry = a.registry.discard id :=
  rfl

@[simp] theorem registry_discardWatcher :
    (a.step (.discardWatcher id)).registry = a.registry.discardWatcher id :=
  rfl

@[simp] theorem registry_clear : (a.step (.clear e)).registry = (a.registry.clear e).2 :=
  rfl

@[simp] theorem registry_dispatch :
    (a.step (.dispatch event)).registry = (a.dispatcher.start event).2.registry :=
  rfl

theorem step_finish_nil (h : a.running = []) : a.step (.finish o) = a := by
  simp [step, h]

theorem step_finish_cons (h : a.running = i :: rest) :
    a.step (.finish o) = ⟨a.dispatcher.finish i o, rest⟩ := by
  simp [step, h]

theorem registry_finish_cons (h : a.running = i :: rest) :
    (a.step (.finish o)).registry = (a.dispatcher.finish i o).registry := by
  rw [step_finish_cons h]

theorem mem_running_dispatch :
    i ∈ (a.step (.dispatch event)).running ↔
      a.called (.dispatch event) = some i ∨ i ∈ a.running := by
  simp [step, called, Option.mem_toList, eq_comm]

end

def run (a : Activity η) (ms : List (Move η)) : Activity η :=
  ms.foldl step a

-- The handlers called on the way, in order.
def calls (a : Activity η) : List (Move η) → List (Invocation η)
  | [] => []
  | m :: ms => (a.called m).toList ++ (a.step m).calls ms

@[simp] theorem run_nil : a.run [] = a :=
  rfl

@[simp] theorem run_cons : a.run (m :: ms) = (a.step m).run ms :=
  rfl

theorem run_append {ms' : List (Move η)} : a.run (ms ++ ms') = (a.run ms).run ms' :=
  List.foldl_append

theorem calls_append {ms' : List (Move η)} :
    a.calls (ms ++ ms') = a.calls ms ++ (a.run ms).calls ms' := by
  induction ms generalizing a
  case nil           => rfl
  case cons m ms ih => simp [calls, ih]

-- An entry is registered in the slot.
def Holds (a : Activity η) (s : Slot) : Prop :=
  (a.registry.get? s).isSome

-- The move takes the entry out of the slot.
def Removes (a : Activity η) (m : Move η) (s : Slot) : Prop :=
  a.Holds s ∧ ¬(a.step m).Holds s

-- A handler runs that was handed a session notice for the entry of the slot.
def IsNotifying (a : Activity η) (s : Slot) : Prop :=
  ∃ i ∈ a.running, i.rearms s

section

variable {c w : Option (Entry η)} {id : RequestId} {e : Entry η} {event : Event} {o : Outcome}
  {i : Invocation η} {rest : List (Invocation η)}

theorem holds_allocate_of_ne (h : s.id ≠ a.registry.nextId) :
    (a.step (.allocate c w)).Holds s ↔ a.Holds s := by
  simp [Holds, Registry.get?_allocate_of_ne, h]

theorem holds_discard :
    (a.step (.discard id)).Holds s ↔ a.Holds s ∧ ¬(s.id = id ∧ s.isSingleUse) := by
  rw [Holds, registry_discard, Registry.get?_discard]
  split <;> simp_all [Holds]

theorem holds_discardWatcher :
    (a.step (.discardWatcher id)).Holds s ↔ a.Holds s ∧ ¬(s = .watcher id ∧ s.isSingleUse) := by
  rw [Holds, registry_discardWatcher, Registry.get?_discardWatcher]
  split
  case isTrue h  => simp [h.left, h.left ▸ h.right]
  case isFalse h => simp [Holds, h]

theorem holds_clear : (a.step (.clear e)).Holds s ↔ s = .watcher .global := by
  rw [Holds, registry_clear, Registry.get?_clear]
  split <;> simp_all

theorem holds_dispatch :
    (a.step (.dispatch event)).Holds s ↔
      a.Holds s ∧ ¬(a.called (.dispatch event)).any (·.consumes s) := by
  rw [Holds, registry_dispatch, Dispatcher.get?_start, called]
  split <;> simp_all [Holds]

theorem holds_finish_cons (h : a.running = i :: rest) :
    (a.step (.finish o)).Holds s ↔ a.Holds s ∨ i.rearms s := by
  rw [Holds, registry_finish_cons h, Dispatcher.get?_finish]
  split <;> simp_all [Holds]

end

instance : Decidable (a.Holds s) :=
  inferInstanceAs (Decidable (_ = true))

instance : Decidable (a.Removes m s) :=
  inferInstanceAs (Decidable (_ ∧ _))

instance : Decidable (a.IsNotifying s) :=
  inferInstanceAs (Decidable (∃ i ∈ a.running, i.rearms s))

theorem nextId_le_step : a.registry.nextId.number ≤ (a.step m).registry.nextId.number := by
  cases m
  case allocate       => exact Int.le_of_lt (Int.lt_succ _)
  case discard        => simp [Registry.discard_nextId]
  case discardWatcher => simp [Registry.discardWatcher_nextId]
  case clear          => simp [Registry.clear_nextId]
  case dispatch       => simp [Dispatcher.start_nextId]
  case finish =>
    cases h : a.running
    case nil  => simp [step_finish_nil h]
    case cons => simp [registry_finish_cons h, Dispatcher.finish_nextId]

-- How an entry gets into the slot of a request: its number is given out, or a handler ends that was
-- handed a session notice for it.
theorem Holds.of_step (hs : s.isSingleUse) (h : (a.step m).Holds s) :
    a.Holds s ∨ a.IsNotifying s ∨
      s.id = a.registry.nextId ∧ s.id.number < (a.step m).registry.nextId.number := by
  cases m
  case allocate =>
    by_cases hn : s.id = a.registry.nextId
    case pos => exact .inr <| .inr ⟨hn, by rw [hn]; exact Int.lt_succ _⟩
    case neg => exact .inl <| holds_allocate_of_ne hn |>.mp h
  case discard        => exact .inl (holds_discard.mp h).left
  case discardWatcher => exact .inl (holds_discardWatcher.mp h).left
  case dispatch       => exact .inl (holds_dispatch.mp h).left
  case clear          => cases holds_clear.mp h; contradiction
  case finish =>
    cases hr : a.running
    case nil => exact .inl <| step_finish_nil hr ▸ h
    case cons i rest =>
      cases holds_finish_cons hr |>.mp h
      case inl h => exact .inl h
      case inr h => exact .inr <| .inl ⟨i, by simp [hr], h⟩

-- A session notice reaches only what is registered.
theorem IsNotifying.of_step (h : (a.step m).IsNotifying s) : a.Holds s ∨ a.IsNotifying s := by
  have ⟨i, hi, hr⟩ := h
  cases m
  case dispatch event =>
    cases mem_running_dispatch.mp hi
    case inr hi => exact .inr ⟨i, hi, hr⟩
    case inl hi =>
      have := Dispatcher.get?_of_start hi
      rw [Invocation.slot_of_rearms hr] at this
      exact .inl <| by simp [Holds, this]
  case finish =>
    cases hc : a.running
    case nil  => exact .inr ⟨i, step_finish_nil hc ▸ hi, hr⟩
    case cons => exact .inr ⟨i, by simp_all [step_finish_cons hc], hr⟩
  all_goals exact .inr ⟨i, hi, hr⟩

-- Every request that is registered, or will be once a handler has ended, has its number.
structure Numbered (a : Activity η) : Prop where
  holds     : ∀ s, s.isSingleUse → a.Holds s → s.id.number < a.registry.nextId.number
  notifying : ∀ s, a.IsNotifying s → s.id.number < a.registry.nextId.number

theorem numbered_empty : (empty : Activity η).Numbered where
  holds s _ h := by simp [Holds, registry, empty, Registry.get?_empty] at h
  notifying s := by simp [IsNotifying, empty]

theorem Numbered.step (h : a.Numbered) : (a.step m).Numbered where
  holds s hs hh := by
    have hn := a.nextId_le_step (m := m)
    rcases hh.of_step hs with hh | hh | hh
    · exact Int.lt_of_lt_of_le (h.holds s hs hh) hn
    · exact Int.lt_of_lt_of_le (h.notifying s hh) hn
    · exact hh.right
  notifying s hh := by
    have hn := a.nextId_le_step (m := m)
    have ⟨_, _, hr⟩ := hh
    cases hh.of_step
    case inl hh =>
      exact Int.lt_of_lt_of_le (h.holds s (Invocation.isSingleUse_of_rearms hr) hh) hn
    case inr hh => exact Int.lt_of_lt_of_le (h.notifying s hh) hn

theorem Numbered.run (h : a.Numbered) : (a.run ms).Numbered := by
  induction ms generalizing a
  case nil          => exact h
  case cons m ms ih => exact ih h.step

end Activity
end Coordination
