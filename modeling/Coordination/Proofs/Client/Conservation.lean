import Coordination.Proofs.Client.Traffic

namespace Coordination.Traffic

variable {ε : Type}

theorem opened_sound (target : Target) (config : Config) (m : Memory) (global : Entry (Callback ε))
    (timeout : Duration) : (opened target config m global timeout).Sound where
  connection := by
    rw [opened, Connection.start_eq timeout rfl]
    exact Connection.started_sound Int.one_pos rfl
  running    := by simp [opened]
  served     := by simp [opened]
  once       := by simp [opened, callsTo]
  spent      := by simp [opened, callsTo]

theorem opened_of_build {b : ClientBuilder} {m : Memory} {global : Entry (Callback ε)}
    {c : Connection Memory (Callback ε)} (h : (b.build m global).1 = .ok c) :
    ∃ target config timeout, c = (opened target config m global timeout).connection := by
  unfold ClientBuilder.build at h
  split at h
  case h_1 => cases h
  case h_2 target _ =>
    split at h
    case h_1 => cases h
    case h_2 config _ =>
      split at h
      case h_1 => cases h
      case h_2 hs =>
        cases h
        exact ⟨target, config, config.connectTimeout, by rw [opened, hs]⟩

-- The completions registered are those of the answers in flight, which come once each. So every
-- callback is called at most once, and every answer finds its callback.
theorem completions_conserved (target : Target) (config : Config) (m : Memory)
    (global : Entry (Callback ε)) (timeout : Duration) (ms : List (Move ε)) :
    let t := (opened target config m global timeout).run ms
    (∀ id, t.connection.inFlight.countP (·.answers id) =
      (t.connection.registry.hasCompletion id).toNat) ∧
    (∀ id, t.callsTo (.completion id) ≤ 1) ∧
    (∀ c i, (.completion c, i) ∈ t.history → i.map Invocation.slot = some (.completion c.id)) ∧
    t.connection.dispatcher.counters.orphanCompletion = 0 := by
  intro t
  have h : t.Sound := opened_sound target config m global timeout |>.run ms
  refine ⟨fun id => ?_, fun id => h.once _ rfl, fun c i => h.served _ i, ?_⟩
  · rw [Registry.hasCompletion_eq]
    exact h.connection.balanced.completions id
  · exact congrArg Prod.fst h.connection.orphans

-- A watcher is registered, that of the whole session apart, just if exactly one thing can still
-- reach it: its watch, which is set, an event in flight, or the answer in flight to an asynchronous
-- read that was to set a watch and has not. So every watcher is called at most once, and every
-- watch event finds its watcher.
theorem watchers_conserved (target : Target) (config : Config) (m : Memory)
    (global : Entry (Callback ε)) (timeout : Duration) (ms : List (Move ε)) :
    let t := (opened target config m global timeout).run ms
    (∀ id, t.connection.backend.watched.count id +
        t.connection.inFlight.countP (·.notifies id) +
        t.connection.inFlight.countP (·.failsWatch t.connection.backend.calls id) =
      (t.connection.registry.hasWatcher id && !id.isGlobal).toNat) ∧
    (∀ id, id.isGlobal = false → t.callsTo (.watcher id) ≤ 1) ∧
    (∀ w i, (.watch w, i) ∈ t.history → i.map Invocation.slot = some (.watcher w.id)) ∧
    t.connection.dispatcher.counters.orphanWatch = 0 := by
  intro t
  have h : t.Sound := opened_sound target config m global timeout |>.run ms
  refine ⟨fun id => ?_, fun id hg => h.once _ (by simp [Slot.isSingleUse, hg]),
    fun w i => h.served _ i, ?_⟩
  · rw [Registry.hasWatcher_eq]
    exact h.connection.balanced.watchers id
  · exact congrArg Prod.snd h.connection.orphans

end Coordination.Traffic
