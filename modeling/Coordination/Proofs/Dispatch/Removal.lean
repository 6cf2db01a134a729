import Coordination.Proofs.Dispatch.Activity

namespace Coordination.Activity

variable {η : Type} {a : Activity η} {m : Move η} {ms : List (Move η)} {s : Slot}

-- The entry of the slot has been there and can never come back.
structure Gone (a : Activity η) (s : Slot) : Prop where
  singleUse : s.isSingleUse
  given     : s.id.number < a.registry.nextId.number
  absent    : ¬a.Holds s
  quiet     : ¬a.IsNotifying s

namespace Gone

theorem step (g : a.Gone s) : (a.step m).Gone s where
  singleUse := g.singleUse
  given     := Int.lt_of_lt_of_le g.given nextId_le_step
  absent h  := by
    rcases h.of_step g.singleUse with h | h | ⟨h, -⟩
    · exact g.absent h
    · exact g.quiet h
    · exact Int.lt_irrefl _ (h ▸ g.given)
  quiet h   := by
    cases h.of_step
    case inl h => exact g.absent h
    case inr h => exact g.quiet h

theorem run (g : a.Gone s) : (a.run ms).Gone s := by
  induction ms generalizing a
  case nil          => exact g
  case cons m ms ih => exact ih g.step

theorem slot_ne_of_called {i : Invocation η} (g : a.Gone s) (h : a.called m = some i) :
    i.slot ≠ s := by
  rintro rfl
  cases m
  case dispatch event => exact g.absent <| by simp [Holds, Dispatcher.get?_of_start h]
  all_goals cases h

theorem slot_ne_of_mem_calls {i : Invocation η} (g : a.Gone s) (h : i ∈ a.calls ms) :
    i.slot ≠ s := by
  induction ms generalizing a
  case nil => cases h
  case cons m ms ih =>
    cases List.mem_append.mp h
    case inl h => exact g.slot_ne_of_called (Option.mem_toList.mp h)
    case inr h => exact ih g.step h

theorem countP_calls (g : a.Gone s) : (a.calls ms).countP (·.consumes s) = 0 := by
  rw [List.countP_eq_zero]
  intro i hi hc
  exact g.slot_ne_of_mem_calls hi (Invocation.slot_of_consumes hc)

end Gone

-- The handler that a move calls may take the entry out; it is never the one that will put it back.
theorem Removes.isNotifying_iff (h : a.Removes m s) :
    (a.step m).IsNotifying s ↔ a.IsNotifying s := by
  cases m
  case dispatch event =>
    have hc := mt (fun hc => holds_dispatch.mpr ⟨h.left, hc⟩) h.right
    rw [Classical.not_not, Option.any_eq_true] at hc
    have ⟨i, hi, hc⟩ := hc
    simp only [IsNotifying, mem_running_dispatch]
    constructor
    case mpr => rintro ⟨j, hj, hr⟩; exact ⟨j, .inr hj, hr⟩
    case mp =>
      rintro ⟨j, hj | hj, hr⟩
      · cases hi.symm.trans hj
        simp [Invocation.consumes_eq_false_of_rearms hr] at hc
      · exact ⟨j, hj, hr⟩
  case finish =>
    cases hr : a.running
    case nil  => rw [Removes, step_finish_nil hr] at h; exact absurd h.left h.right
    case cons => exact absurd (holds_finish_cons hr |>.mpr <| .inl h.left) h.right
  all_goals rfl

theorem Removes.gone (hn : a.Numbered) (hs : s.isSingleUse) (h : a.Removes m s)
    (hq : ¬a.IsNotifying s) : (a.step m).Gone s where
  singleUse := hs
  given     := Int.lt_of_lt_of_le (hn.holds s hs h.left) nextId_le_step
  absent    := h.right
  quiet     := mt h.isNotifying_iff.mp hq

-- Induction on the handlers that are running: each of them ends, and the one that was handed the
-- session notice puts the entry back, unless it is there already.
theorem IsNotifying.returns (h : a.IsNotifying s) :
    ∃ n, (a.run (.replicate n (.finish .ok))).Holds s := by
  obtain ⟨i, hi, hr⟩ := h
  generalize hl : a.running = l at hi
  induction l generalizing a
  case nil => cases hi
  case cons j rest ih =>
    cases hi
    case head => exact ⟨1, holds_finish_cons hl |>.mpr <| .inr hr⟩
    case tail hi =>
      have ⟨n, hn⟩ := ih (congrArg running <| step_finish_cons (o := .ok) hl) hi
      exact ⟨n + 1, hn⟩

theorem Holds.used (hs : s.isSingleUse) (h : a.Holds s) :
    ∃ event, ∃ i ∈ a.called (.dispatch event), i.consumes s := by
  have ⟨e, he⟩ := Option.isSome_iff_exists.mp h
  cases s
  case completion id =>
    refine ⟨.completion ⟨id, .ok, none, .none⟩, ?_⟩
    simp_all [called, Dispatcher.start_completion]
  case watcher id =>
    refine ⟨.watch ⟨id, .changed, .connected, none⟩, ?_⟩
    simp_all [called, Dispatcher.start_watch, Registry.keepsWatcher, Slot.isSingleUse]
    rfl

theorem removes_of_consumes {i : Invocation η} (hi : a.called m = some i) (hc : i.consumes s) :
    a.Removes m s := by
  cases m
  case dispatch event =>
    have he := Dispatcher.get?_of_start hi
    rw [Invocation.slot_of_consumes hc] at he
    refine ⟨by simp [Holds, he], fun h => (holds_dispatch.mp h).right ?_⟩
    simp [hi, hc]
  all_goals cases hi

-- Induction on the moves: before the first call that uses the entry up there is nothing to count,
-- and after it the entry is gone.
theorem Numbered.countP_calls_le_one (hn : a.Numbered) (hs : s.isSingleUse)
    (hq : ∀ before m after, ms = before ++ m :: after →
      ((a.run before).called m).any (·.consumes s) → ¬(a.run before).IsNotifying s) :
    (a.calls ms).countP (·.consumes s) ≤ 1 := by
  induction ms generalizing a
  case nil => simp [calls]
  case cons m ms ih =>
    rw [calls, List.countP_append]
    cases hc : (a.called m).any (·.consumes s)
    case true =>
      obtain ⟨i, hi, hc⟩ := Option.any_eq_true _ _ |>.mp hc
      have g := (removes_of_consumes hi hc).gone hn hs <| hq [] m ms rfl (by simp [hi, hc])
      simp [hi, hc, g.countP_calls]
    case false =>
      have h₁ : (a.called m).toList.countP (·.consumes s) = 0 := by
        cases hi : a.called m <;> simp_all
      have h₂ := ih hn.step fun before m' after h => hq (m :: before) m' after (by simp [h])
      omega

-- An entry is used up at most once, unless it is used up while a session notice for it is being
-- handled. And when an entry is removed, then this decides whether it is ever registered, called or
-- used up again: no later move matters.
theorem removed_returns_iff (hs : s.isSingleUse) (ms : List (Move η)) :
    ((∀ before m after, ms = before ++ m :: after →
        ((empty.run before).called m).any (·.consumes s) → ¬(empty.run before).IsNotifying s) →
      (empty.calls ms).countP (·.consumes s) ≤ 1) ∧
    ∀ m, (empty.run ms).Removes m s →
      ((∃ rest, (empty.run (ms ++ m :: rest)).Holds s) ↔ (empty.run ms).IsNotifying s) ∧
      ((∃ rest, ∃ i ∈ (empty.run (ms ++ [m])).calls rest, i.slot = s) ↔
        (empty.run ms).IsNotifying s) ∧
      ((∃ rest, ∃ i ∈ (empty.run (ms ++ [m])).calls rest, i.consumes s) ↔
        (empty.run ms).IsNotifying s) := by
  refine ⟨numbered_empty.countP_calls_le_one hs, fun m h => ?_⟩
  simp only [run_append, run_cons, run_nil]
  generalize ha : empty.run ms = a at h
  have hn : a.Numbered := ha ▸ numbered_empty.run
  by_cases hq : a.IsNotifying s
  case pos =>
    have ⟨n, hr⟩ := h.isNotifying_iff.mpr hq |>.returns
    have ⟨event, i, hi, hc⟩ := hr.used hs
    have hm : i ∈ (a.step m).calls (.replicate n (.finish .ok) ++ [.dispatch event]) := by
      rw [calls_append]
      exact List.mem_append_right _ <| by simp_all [calls]
    simp only [hq, iff_true]
    exact ⟨⟨_, hr⟩, ⟨_, i, hm, Invocation.slot_of_consumes hc⟩, ⟨_, i, hm, hc⟩⟩
  case neg =>
    have g := h.gone hn hs hq
    simp only [hq, iff_false, not_exists, not_and]
    refine ⟨fun _ => g.run.absent, fun _ _ => g.slot_ne_of_mem_calls, fun _ i hi hc => ?_⟩
    exact g.slot_ne_of_mem_calls hi (Invocation.slot_of_consumes hc)

-- Request 1 has a completion and a watcher, and a session notice for it is being handled.
def notified : List (Move Unit) := [
  .allocate (some ⟨(), none⟩) (some ⟨(), none⟩),
  .dispatch (.watch ⟨⟨1⟩, .session, .connecting, none⟩)]

-- The watcher discarded by its own handler returns, and it is handed the next change.
theorem removed_returns_in_notice :
    (Slot.watcher ⟨1⟩).isSingleUse ∧
    (empty.run notified).Removes (.discardWatcher ⟨1⟩) (.watcher ⟨1⟩) ∧
    (∃ rest, (empty.run (notified ++ .discardWatcher ⟨1⟩ :: rest)).Holds (.watcher ⟨1⟩)) ∧
    ∃ rest, ∃ i ∈ (empty.run (notified ++ [.discardWatcher ⟨1⟩])).calls rest,
      i.consumes (.watcher ⟨1⟩) := by
  have hr : (empty.run notified).Removes (.discardWatcher ⟨1⟩) (.watcher ⟨1⟩) := by decide
  have hn : (empty.run notified).IsNotifying (.watcher ⟨1⟩) := by decide
  have ⟨h, _, hc⟩ := removed_returns_iff (by decide) notified |>.right _ hr
  exact ⟨by decide, hr, h.mpr hn, hc.mpr hn⟩

-- Both entries of the request are used up twice if they are used up while the notice is handled,
-- and neither a discard nor a clearing at this time lasts.
theorem notice_undoes_removal :
    (empty.calls (notified ++ [
      .dispatch (.watch ⟨⟨1⟩, .changed, .connected, none⟩), .finish .ok, .finish .ok,
      .dispatch (.watch ⟨⟨1⟩, .changed, .connected, none⟩)])).countP
        (·.consumes (.watcher ⟨1⟩)) = 2 ∧
    (empty.calls ([
      .allocate (some ⟨(), none⟩) none,
      .dispatch (.watch ⟨⟨1⟩, .session, .connecting, none⟩),
      .dispatch (.completion ⟨⟨1⟩, .ok, none, .none⟩), .finish .ok, .finish .ok,
      .dispatch (.completion ⟨⟨1⟩, .ok, none, .none⟩)] : List (Move Unit))).countP
        (·.consumes (.completion ⟨1⟩)) = 2 ∧
    ¬(empty.run (notified ++ [.discard ⟨1⟩])).Holds (.watcher ⟨1⟩) ∧
    (empty.run (notified ++ [.discard ⟨1⟩, .finish .ok])).Holds (.watcher ⟨1⟩) ∧
    ¬(empty.run (notified ++ [.clear ⟨(), none⟩])).Holds (.watcher ⟨1⟩) ∧
    (empty.run (notified ++ [.clear ⟨(), none⟩, .finish .ok])).Holds (.watcher ⟨1⟩) := by
  decide

end Coordination.Activity
