import Coordination.Proofs.Dispatch.Activity

namespace Coordination

-- A request that was given out, with the handlers that came with it.
structure Grant (η : Type) where
  id : RequestId
  completion : Option (Entry η)
  watcher : Option (Entry η)

-- What the request brought into a slot.
def Grant.entry? {η : Type} (g : Grant η) : Slot → Option (Entry η)
  | .completion id => if id = g.id then g.completion else none
  | .watcher id => if id = g.id then g.watcher else none

theorem Grant.id_of_entry? {η : Type} {g : Grant η} {s : Slot} {e : Entry η}
    (h : g.entry? s = some e) : g.id = s.id := by
  cases s <;> exact (Option.ite_none_right_eq_some.mp h).left.symm

namespace Activity

-- Whatever is done to a registry: the moves, entries looked up and taken out by hand, and global
-- watchers installed.
inductive Access (η : Type)
  | move (m : Move η)
  | resolveCompletion (id : RequestId)
  | resolveWatcher (id : RequestId) (type : EventType)
  | installGlobal (global : Entry η)

variable {η : Type} {a : Activity η} {x : Access η} {xs before after : List (Access η)}
  {gs gs' : List (Grant η)} {g : Grant η} {s : Slot} {e global : Entry η} {c w : Option (Entry η)}
  {installed : Option (Entry η)} {r : Registry η}

def access (a : Activity η) : Access η → Activity η
  | .move m => a.step m
  | .resolveCompletion id => a.withRegistry fun r => (r.resolveCompletion id).2
  | .resolveWatcher id type => a.withRegistry fun r => (r.resolveWatcher id type).2
  | .installGlobal global => a.withRegistry (·.installGlobal global)

def accessAll (a : Activity η) (xs : List (Access η)) : Activity η :=
  xs.foldl access a

def granted (a : Activity η) : Access η → List (Grant η)
  | .move (.allocate c w) => [⟨(a.registry.allocate c w).1, c, w⟩]
  | _ => []

-- The requests given out on the way, in order.
def grants (a : Activity η) : List (Access η) → List (Grant η)
  | [] => []
  | x :: xs => a.granted x ++ (a.access x).grants xs

def Access.installs : Access η → Option (Entry η)
  | .move (.clear global) | .installGlobal global => some global
  | _ => none

-- The global watcher that is there in the end: the one installed last, else the one there was.
def lastInstalled (installed : Option (Entry η)) (xs : List (Access η)) : Option (Entry η) :=
  xs.foldl (fun installed x => x.installs.or installed) installed

theorem grants_append :
    a.grants (before ++ after) = a.grants before ++ (a.accessAll before).grants after := by
  induction before generalizing a
  case nil          => rfl
  case cons x xs ih => simp [grants, accessAll, ih]

-- Some request brought the entry into the slot.
def Brought (gs : List (Grant η)) (s : Slot) (e : Entry η) : Prop :=
  ∃ g ∈ gs, g.entry? s = some e

theorem Brought.append (h : Brought gs s e) (gs' : List (Grant η)) : Brought (gs ++ gs') s e := by
  have ⟨g, hg, he⟩ := h
  exact ⟨g, List.mem_append_left _ hg, he⟩

-- The numbers of the requests are 1, 2, 3 and so on.
def Numbering (gs : List (Grant η)) : Prop :=
  gs.map (·.id.number) = (List.range gs.length).map fun n : Nat => (n : Int) + 1

theorem Numbering.concat (h : Numbering gs) (hn : g.id.number = gs.length + 1) :
    Numbering (gs ++ [g]) := by
  unfold Numbering at *
  rw [List.map_append, h, List.length_append, List.length_singleton, List.range_succ,
    List.map_append, List.map_singleton, List.map_singleton, hn]

theorem Numbering.bounds (h : Numbering gs) (hg : g ∈ gs) :
    0 < g.id.number ∧ g.id.number ≤ gs.length := by
  have hm : g.id.number ∈ gs.map (·.id.number) := List.mem_map_of_mem hg
  rw [h] at hm
  obtain ⟨n, hn, he⟩ := List.mem_map.mp hm
  have hn := List.mem_range.mp hn
  omega

-- Later requests have larger numbers.
theorem Numbering.increasing (h : Numbering gs) :
    gs.Pairwise fun g g' => g.id.number < g'.id.number := by
  have hp : (gs.map (·.id.number)).Pairwise (· < ·) := by
    rw [h, List.pairwise_map]
    exact List.pairwise_lt_range.imp fun hlt => by omega
  exact List.pairwise_map.mp hp

-- Of two requests with the same number there is but one.
theorem Numbering.brought (h : Numbering (gs ++ gs')) (hb : Brought (gs ++ gs') s e) (hg : g ∈ gs)
    (hid : g.id = s.id) : Brought gs s e := by
  have ⟨g', hg', he⟩ := hb
  rcases List.mem_append.mp hg' with hg' | hg'
  case inl => exact ⟨g', hg', he⟩
  case inr =>
    have hlt := (List.pairwise_append.mp h.increasing).right.right g hg g' hg'
    rw [hid, Grant.id_of_entry? he] at hlt
    exact absurd hlt (Int.lt_irrefl _)

-- The requests and the global watcher that account for what is registered, or will be once a
-- handler has ended.
structure Accounts (gs : List (Grant η)) (installed : Option (Entry η)) (a : Activity η) :
    Prop where
  nextId    : a.registry.nextId.number = gs.length + 1
  numbering : Numbering gs
  global    : a.registry.get? (.watcher .global) = installed
  entries   : ∀ s e, s.isSingleUse → a.registry.get? s = some e → Brought gs s e
  running   : ∀ i ∈ a.running, i.rearms i.slot → Brought gs i.slot i.entry

namespace Accounts

theorem new : Accounts [] none (empty : Activity η) where
  nextId          := rfl
  numbering       := rfl
  global          := Registry.get?_empty
  entries _ _ _ h := nomatch Registry.get?_empty.symm.trans h
  running _ h     := nomatch h

theorem nextId_ne_global (h : Accounts gs installed a) : a.registry.nextId ≠ .global := by
  intro hg
  have hn := h.nextId
  rw [hg] at hn
  change (-1 : Int) = _ at hn
  omega

theorem absent_of_nextId (h : Accounts gs installed a) (hs : s.id = a.registry.nextId) :
    a.registry.get? s = none := by
  refine Option.eq_none_iff_forall_ne_some.mpr fun e he => ?_
  by_cases hu : s.isSingleUse
  case pos =>
    have ⟨g, hg, hb⟩ := h.entries s e hu he
    have hl := (h.numbering.bounds hg).right
    rw [Grant.id_of_entry? hb, hs, h.nextId] at hl
    omega
  case neg =>
    cases Decidable.not_not.mp (mt Slot.isSingleUse_of_ne hu)
    exact h.nextId_ne_global hs.symm

-- What is registered for another request than the next one is not touched.
theorem allocate (h : Accounts gs installed a) :
    Accounts (gs ++ [⟨(a.registry.allocate c w).1, c, w⟩]) installed
      (a.step (.allocate c w)) where
  nextId          := by simp [h.nextId, Registry.allocate_nextId]
  numbering       := h.numbering.concat h.nextId
  running i hi hr := (h.running i hi hr).append _
  global := by
    rw [registry_allocate, Registry.get?_allocate_of_ne c w, h.global]
    exact h.nextId_ne_global.symm
  entries s e hu he := by
    rw [registry_allocate] at he
    by_cases hs : s.id = a.registry.nextId
    case neg =>
      rw [Registry.get?_allocate_of_ne c w hs] at he
      exact (h.entries s e hu he).append _
    case pos =>
      refine ⟨_, List.mem_append_right _ (List.mem_singleton_self _), ?_⟩
      have hn := h.absent_of_nextId hs
      cases s <;> simp only [Slot.id] at hs
      case completion =>
        rw [Registry.get?_allocate_completion, if_pos hs, hn, Option.or_none] at he
        exact (if_pos hs).trans he
      case watcher =>
        rw [Registry.get?_allocate_watcher, if_pos hs, hn, Option.or_none] at he
        exact (if_pos hs).trans he

-- Entries are taken out, but not the global watcher.
theorem takeOut (h : Accounts gs installed a) (hn : r.nextId = a.registry.nextId)
    (hs : ∀ s, r.get? s = a.registry.get? s ∨ s.isSingleUse ∧ r.get? s = none) :
    Accounts gs installed (a.withRegistry fun _ => r) where
  nextId    := hn ▸ h.nextId
  numbering := h.numbering
  running   := h.running
  global    := by
    rcases hs (.watcher .global) with hg | ⟨hg, _⟩
    · exact hg.trans h.global
    · cases hg
  entries s e hu he := by
    rcases hs s with hs | ⟨_, hs⟩
    · exact h.entries s e hu (hs ▸ he)
    · cases hs.symm.trans he

-- Another global watcher takes the place, and the other entries stay or go.
theorem install (h : Accounts gs installed a) (hn : r.nextId = a.registry.nextId)
    (hg : r.get? (.watcher .global) = some global)
    (hs : ∀ s, s.isSingleUse → r.get? s = a.registry.get? s ∨ r.get? s = none) :
    Accounts gs (some global) (a.withRegistry fun _ => r) where
  nextId    := hn ▸ h.nextId
  numbering := h.numbering
  running   := h.running
  global    := hg
  entries s e hu he := by
    rcases hs s hu with hs | hs
    · exact h.entries s e hu (hs ▸ he)
    · cases hs.symm.trans he

theorem dispatch (h : Accounts gs installed a) (event : Event) :
    Accounts gs installed (a.step (.dispatch event)) := by
  have ht : Accounts gs installed
      (a.withRegistry fun _ => (a.dispatcher.start event).2.registry) := by
    refine h.takeOut (Dispatcher.start_nextId event) fun s => ?_
    rw [Dispatcher.get?_start]
    split
    case isFalse => exact .inl rfl
    case isTrue hc =>
      have ⟨_, _, hc⟩ := Option.any_eq_true _ _ |>.mp hc
      exact .inr ⟨Invocation.isSingleUse_of_consumes hc, rfl⟩
  refine ⟨ht.nextId, h.numbering, ht.global, ht.entries, fun i hi hr => ?_⟩
  cases mem_running_dispatch.mp hi
  case inr hi => exact h.running i hi hr
  case inl hi =>
    exact h.entries _ _ (Invocation.isSingleUse_of_rearms hr) (Dispatcher.get?_of_start hi)

-- What is put back was registered when the handler was called.
theorem finish (h : Accounts gs installed a) (outcome : Outcome) :
    Accounts gs installed (a.step (.finish outcome)) := by
  cases hr : a.running
  case nil => rwa [step_finish_nil hr]
  case cons i rest =>
    have get? (s : Slot) := Dispatcher.get?_finish (d := a.dispatcher) (s := s) i outcome
    rw [step_finish_cons hr]
    constructor
    case nextId    => rw [registry, Dispatcher.finish_nextId, h.nextId]
    case numbering => exact h.numbering
    case running   => exact fun j hj => h.running j (by simp [hr, hj])
    case global =>
      rw [registry, get?, if_neg fun hc => absurd (Invocation.isSingleUse_of_rearms hc) (by decide)]
      exact h.global
    case entries =>
      intro s e hu he
      rw [registry, get?] at he
      split at he
      case isFalse => exact h.entries s e hu he
      case isTrue hc =>
        cases Invocation.slot_of_rearms hc
        rcases Option.or_eq_some_iff.mp he with he | ⟨_, he⟩
        case inl => exact h.entries _ e hu he
        case inr =>
          cases he
          exact h.running i (by simp [hr]) hc

theorem access (h : Accounts gs installed a) (x : Access η) :
    Accounts (gs ++ a.granted x) (x.installs.or installed) (a.access x) := by
  rcases x with m | id | ⟨id, type⟩ | global
  case move =>
    cases m
    case allocate => exact h.allocate
    all_goals rw [show a.granted _ = [] from rfl, List.append_nil]
    case dispatch event => exact h.dispatch event
    case finish outcome => exact h.finish outcome
    case discard =>
      refine h.takeOut Registry.discard_nextId fun s => ?_
      rw [Registry.get?_discard]
      split
      case isTrue hs => exact .inr ⟨hs.right, rfl⟩
      case isFalse   => exact .inl rfl
    case discardWatcher =>
      refine h.takeOut Registry.discardWatcher_nextId fun s => ?_
      rw [Registry.get?_discardWatcher]
      split
      case isTrue hs => exact .inr ⟨hs.right, rfl⟩
      case isFalse   => exact .inl rfl
    case clear global =>
      refine h.install (Registry.clear_nextId global) (Registry.get?_clear global) fun s hu => ?_
      rw [Registry.get?_clear, if_neg]
      · exact .inr rfl
      · rintro rfl
        cases hu
  all_goals rw [show a.granted _ = [] from rfl, List.append_nil]
  case resolveCompletion =>
    refine h.takeOut rfl fun s => ?_
    rw [Registry.get?_resolveCompletion]
    split
    case isTrue hs => exact .inr ⟨hs ▸ rfl, rfl⟩
    case isFalse   => exact .inl rfl
  case resolveWatcher =>
    refine h.takeOut (Registry.resolveWatcher_nextId type) fun s => ?_
    rw [Registry.get?_resolveWatcher]
    split
    case isFalse => exact .inl rfl
    case isTrue hs =>
      have hk := (Bool.or_eq_false_iff.mp hs.right).left
      exact .inr ⟨by rw [hs.left, Slot.isSingleUse, hk]; rfl, rfl⟩
  case installGlobal =>
    refine h.install rfl (Registry.get?_installGlobal global) fun s hu => ?_
    rw [Registry.get?_installGlobal, if_neg]
    · exact .inl rfl
    · rintro rfl
      cases hu

theorem accessAll (h : Accounts gs installed a) (xs : List (Access η)) :
    Accounts (gs ++ a.grants xs) (lastInstalled installed xs) (a.accessAll xs) := by
  induction xs generalizing a gs installed
  case nil => simpa [grants, Activity.accessAll, lastInstalled] using h
  case cons x xs ih =>
    rw [grants, ← List.append_assoc]
    exact ih (h.access x)

theorem lt_nextId (h : Accounts gs installed a) (hg : g ∈ gs) :
    g.id.number < a.registry.nextId.number := by
  have := (h.numbering.bounds hg).right
  have := h.nextId
  omega

-- A new request has nothing to overwrite.
theorem get?_allocate (h : Accounts gs installed a) (he : a.registry.get? s = some e) :
    (a.registry.allocate c w).2.get? s = some e := by
  rw [Registry.get?_allocate_of_ne c w, he]
  exact fun hs => nomatch he.symm.trans (h.absent_of_nextId hs)

-- An event for one of the first requests reaches only what came with it.
theorem brought_of_called {event : Event} {i : Invocation η}
    (h : Accounts (gs ++ gs') installed a) (hg : g ∈ gs) (hid : g.id = event.id)
    (hi : a.called (.dispatch event) = some i) :
    i.slot.id = event.id ∧ Brought gs i.slot i.entry := by
  have hs : i.slot.id = event.id := by rw [Invocation.slot_id, Dispatcher.start_event hi]
  have hn : i.slot ≠ .watcher .global := by
    intro hglobal
    have hb := (h.numbering.bounds (List.mem_append_left _ hg)).left
    rw [hid, ← hs, hglobal] at hb
    exact absurd hb (by decide)
  have hb := h.entries _ _ (Slot.isSingleUse_of_ne hn) (Dispatcher.get?_of_start hi)
  exact ⟨hs, h.numbering.brought hb hg (hid.trans hs.symm)⟩

end Accounts

-- The requests are numbered in the order in which they are given out, whatever is cleared in
-- between, and what is registered was brought by its request or is the global watcher installed
-- last. So a new request has nothing to overwrite, and an event for a request from before a
-- clearing reaches only what came with that request, however late it is.
theorem registered_granted (xs : List (Access η)) :
    let a := empty.accessAll xs
    let gs := empty.grants xs
    gs.Pairwise (fun g g' => g.id.number < g'.id.number) ∧
    (∀ s e, a.registry.get? s = some e → s = .watcher .global ∨ Brought gs s e) ∧
    (∀ c w, (a.registry.allocate c w).1.number = gs.length + 1 ∧
      (a.registry.allocate c w).1 ≠ .global ∧
      (∀ g ∈ gs, g.id.number < (a.registry.allocate c w).1.number) ∧
      ∀ s e, a.registry.get? s = some e → (a.registry.allocate c w).2.get? s = some e) ∧
    a.registry.get? (.watcher .global) = lastInstalled none xs ∧
    ∀ before global after, xs = before ++ .move (.clear global) :: after →
      ∀ event i, (∃ g ∈ empty.grants before, g.id = event.id) →
        a.called (.dispatch event) = some i →
        i.slot.id = event.id ∧ Brought (empty.grants before) i.slot i.entry := by
  intro a gs
  have h : Accounts gs (lastInstalled none xs) a := Accounts.new.accessAll xs
  refine ⟨h.numbering.increasing, fun s e he => ?_, fun c w => ?_, h.global, ?_⟩
  case refine_1 =>
    by_cases hs : s = .watcher .global
    case pos => exact .inl hs
    case neg => exact .inr <| h.entries s e (Slot.isSingleUse_of_ne hs) he
  case refine_2 =>
    exact ⟨h.nextId, h.nextId_ne_global, fun _ => h.lt_nextId, fun _ _ => h.get?_allocate⟩
  case refine_3 =>
    rintro before global after hx event i ⟨g, hg, hid⟩ hi
    have hgs : gs = empty.grants before ++ _ := (congrArg empty.grants hx).trans grants_append
    exact (hgs ▸ h).brought_of_called hg hid hi

-- The watcher of request 1 was told that the session is connecting, and its handler has cleared the
-- registry and made a request of its own.
def cleared : List (Access Nat) := [
  .move (.allocate none (some ⟨1, none⟩)),
  .move (.dispatch (.watch ⟨⟨1⟩, .session, .connecting, none⟩)),
  .move (.clear ⟨0, none⟩),
  .move (.allocate none (some ⟨2, none⟩)),
  .move (.finish .ok)]

-- A late change for request 1 finds the watcher that came with it, which is back.
theorem registered_granted_late :
    let late : Event := .watch ⟨⟨1⟩, .changed, .connected, none⟩
    let i : Invocation Nat := ⟨.watch, late, ⟨1, none⟩⟩
    (∃ g ∈ empty.grants (cleared.take 2), g.id = late.id) ∧
      (empty.accessAll cleared).called (.dispatch late) = some i ∧
      i.slot.id = late.id ∧ Brought (empty.grants (cleared.take 2)) i.slot i.entry ∧
      (empty.accessAll cleared).registry.get? (.watcher .global) = some ⟨0, none⟩ := by
  intro late i
  have ⟨_, _, _, hg, hl⟩ := registered_granted cleared
  have hm : ∃ g ∈ empty.grants (cleared.take 2), g.id = late.id :=
    ⟨_, List.mem_singleton_self _, rfl⟩
  have hi : (empty.accessAll cleared).called (.dispatch late) = some i := rfl
  have ⟨hs, hb⟩ := hl (cleared.take 2) ⟨0, none⟩ (cleared.drop 3) rfl late i hm hi
  exact ⟨hm, hi, hs, hb, hg⟩

end Activity
end Coordination
