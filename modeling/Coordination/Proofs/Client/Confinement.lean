import Coordination.Proofs.Client.Conservation
import Coordination.Proofs.Memory.Anchored

namespace Coordination

open Coordination.Path
open scoped List

def Target.stripping (target : Target) : Option Target :=
  if target.isChrooted then some target else none

namespace Connection

variable {ε : Type} {c c' : Connection Memory (Callback ε)} {target : Target}

theorem Sound.submit_eq (h : c.Sound) {op : Operation} {o : CallOptions ε}
    (ha : Client.accept (op.watching o.hasWatcher) o.hasWatcher c = .ok ()) :
    let id := c.registry.nextId
    let call := Client.call op o
    let outcome := (c.backend.logged id call).execute id call.op
    Client.submit op o c =
      (.ok (Client.reply call.op id c.target (call.result outcome.1)), { c with
        backend := outcome.2.answered id call outcome.1
        dispatcher.registry := c.registry.enroll (Client.completionEntry call.op c.target o)
          (Client.watcherEntry o) (Client.kept call.op o (.ok (call.result outcome.1))) }) ∧
      c.backend.Answers id call outcome.1 (outcome.2.answered id call outcome.1) := by
  obtain ⟨_, _, hs⟩ := assertOpen_ok (Client.accept_ok ha).right
  obtain ⟨hi, an⟩ := c.backend.issue_executes h.isOpen hs c.registry.nextId (Client.call op o)
  have hi : Backend.issue c.registry.nextId (Client.call op o) c.backend = _ := hi
  refine ⟨?_, an⟩
  rw [Client.submit_accepted ha, hi]
  rfl

structure Anchored (target : Target) (c : Connection Memory (Callback ε)) : Prop where
  made    : c.target = target
  backend : c.backend.Anchored target
  -- Whoever waits for a created path strips it.
  strips  : ∀ answer path entry, .completion answer ∈ c.inFlight →
    answer.payload = .string (some path) →
    c.registry.get? (.completion answer.id) = some entry →
    entry.handler.stripping = target.stripping

namespace Anchored

-- Events may move about, and watch events may come in.
theorem of_moves (a : Anchored target c) (k : Kin c c') (m : Moves c c')
    (hb : c'.backend.Anchored target)
    (hi : ∀ answer, .completion answer ∈ c'.inFlight → .completion answer ∈ c.inFlight) :
    Anchored target c' where
  made    := k.target.trans a.made
  backend := hb
  strips answer path entry h hp he := by
    rw [registry, m.dispatcher] at he
    exact a.strips answer path entry (hi answer h) hp he

theorem withBackend {m : Memory} {es : List Event} (a : Anchored target c)
    (s : c.backend.Sends m es) (hm : m.Anchored target)
    (he : ∀ e ∈ es, ∃ state, e = .watch (.session state)) :
    Anchored target { c with backend := m } := by
  refine a.of_moves ⟨rfl, rfl, rfl⟩ ⟨rfl, rfl, rfl⟩ hm fun answer h => ?_
  rcases List.mem_append.mp h with h | h
  case inr => exact List.mem_append_right _ h
  case inl =>
    rcases List.mem_append.mp (s.inFlight.subset h) with h | h
    · exact List.mem_append_left _ h
    · obtain ⟨_, h⟩ := he _ h
      cases h

theorem deliverOne {records : List Record} (a : Anchored target c) (h : c.Sound)
    (hd : c.deliverOne = some (c', records)) : Anchored target c' := by
  have hm := deliverOne_moves hd
  have hk := deliverOne_kin hd
  have hi := (h.deliverOne_inFlight hd).subset
  rcases h.deliverOne_cases hd with ⟨_, _, _, _, _, rfl⟩ | ⟨_, _, rfl⟩
  case inl => exact a.of_moves hk hm ⟨a.backend.session, a.backend.watches⟩ fun _ h => hi h
  case inr => exact a.of_moves hk hm ⟨a.backend.session, a.backend.watches⟩ fun _ h => hi h

theorem nextEvent (a : Anchored target c) (h : c.Sound) : Anchored target c.nextEvent.2 := by
  have hb := h.nextEvent_backend.left ▸ a.backend
  refine a.of_moves nextEvent_kin nextEvent_moves hb fun answer hm => ?_
  exact h.nextEvent_inFlight.symm.subset (List.mem_append_right _ hm)

theorem enter (a : Anchored target c) (e : Event) : Anchored target (c.enter e).2 := by
  have hs := c.enter_snd (e := e)
  refine ⟨?_, ?_, fun answer path entry h hp he => ?_⟩
  case refine_1 => rw [hs]; exact a.made
  case refine_2 => rw [hs]; exact a.backend
  case refine_3 =>
    rw [get?_enter_completion] at he
    obtain ⟨_, he⟩ := Option.ite_none_left_eq_some.mp he
    have hi : (c.enter e).2.inFlight = c.inFlight := by rw [hs]; rfl
    exact a.strips answer path entry (hi ▸ h) hp he

theorem leave {i : Invocation (Callback ε)} (a : Anchored target c) (hi : ∀ s, i.rearms s = false)
    (outcome : Outcome) : Anchored target (c.leave i outcome) := by
  have hr : (c.leave i outcome).registry = c.registry := Dispatcher.finish_registry hi outcome
  refine ⟨a.made, a.backend, fun answer path entry h hp he => ?_⟩
  exact a.strips answer path entry h hp (hr ▸ he)

theorem started (hn : c.target = target) : Anchored target c.started := by
  obtain ⟨_, _, hf⟩ := c.backend.init_fresh c.target
  refine ⟨hn, hn ▸ .init c.backend c.target, fun answer path entry h hp he => ?_⟩
  have he := (Registry.get?_clear c.global).symm.trans he
  simp at he

theorem restart (a : Anchored target c) (timeout : Duration) :
    Anchored target (c.restart timeout).2.1 := by
  rw [restart_eq]
  exact started (stop_kin.target.trans a.made)

theorem submit (a : Anchored target c) (h : c.Sound) (op : Operation) (o : CallOptions ε) :
    Anchored target (Client.submit op o c).2 := by
  cases ha : Client.accept (op.watching o.hasWatcher) o.hasWatcher c
  case error => rw [Client.submit_rejected ha]; exact a
  case ok =>
    obtain ⟨hs, an⟩ := h.submit_eq ha
    have hp : IsAbsolute (Client.call op o).op.path := Client.accept_path ha
    rw [hs]
    have hm : (c.backend.logged c.registry.nextId (Client.call op o)).Anchored target :=
      ⟨a.backend.session, a.backend.watches⟩
    refine ⟨a.made, (hm.execute hp).talks (.answered ..), fun answer path entry hi hpl he => ?_⟩
    change (c.registry.enroll _ _ _).get? _ = _ at he
    have old (hold : .completion answer ∈ c.inFlight) :
        entry.handler.stripping = target.stripping := by
      have hn : (Slot.completion answer.id).id ≠ c.registry.nextId := h.balanced.id_ne_nextId hold
      exact a.strips answer path entry hold hpl (Registry.get?_enroll_of_ne hn ▸ he)
    rcases List.mem_append.mp hi with hi | hi
    case inr => exact old (List.mem_append_right _ hi)
    rcases List.mem_append.mp (an.inFlight.subset hi) with hi | hi
    case inl =>
      rcases List.mem_append.mp hi with hi | hi
      case inl => exact old (List.mem_append_left _ hi)
      case inr => simp at hi
    case inr =>
      obtain ⟨_, rfl⟩ := completion_mem_answer.mp hi
      have hc := (Memory.execute_effect _ _).isCreate_of_string hpl
      rcases Registry.get?_of_enroll he with he | he
      case inl =>
        have hn : c.registry.get? (.completion c.registry.nextId) = none :=
          h.balanced.absent rfl rfl
        cases hn.symm.trans he
      case inr =>
        obtain ⟨_, _, rfl⟩ := Option.map_eq_some_iff.mp he
        simp [Target.stripping, hc, a.made]

end Anchored
end Connection

namespace Traffic

variable {ε : Type} {t : Traffic ε} {target : Target}

structure Anchored (target : Target) (t : Traffic ε) : Prop where
  connection : t.connection.Anchored target
  -- Whoever was handed a created path has stripped it.
  strips     : ∀ answer path i, (.completion answer, some i) ∈ t.history →
    answer.payload = .string (some path) → i.entry.handler.stripping = target.stripping

namespace Anchored

theorem withBackend {m : Memory} {es : List Event} (a : Anchored target t)
    (s : t.connection.backend.Sends m es) (hm : m.Anchored target)
    (he : ∀ e ∈ es, ∃ state, e = .watch (.session state)) : (t.withBackend m).Anchored target :=
  ⟨a.connection.withBackend s hm he, a.strips⟩

theorem dispatch (a : Anchored target t) (h : t.Sound) : (t.step .dispatch).Anchored target := by
  have ac := a.connection.nextEvent h.connection
  cases hn : t.connection.nextEvent.1
  case none => rw [step_dispatch_none hn]; exact ⟨ac, a.strips⟩
  case some e =>
    obtain ⟨i, hi, _, _⟩ := h.connection.enter hn
    rw [step_dispatch_some hn hi]
    refine ⟨ac.enter e, fun answer path j hj hp => ?_⟩
    cases hj
    case tail hj => exact a.strips answer path j hj hp
    case head =>
      have hm : .completion answer ∈ t.connection.inFlight :=
        h.connection.nextEvent_inFlight.symm.subset (by simp [hn])
      refine a.connection.strips answer path i.entry hm hp ?_
      rw [Connection.enter_completion] at hi
      obtain ⟨entry, he, rfl⟩ := Option.map_eq_some_iff.mp hi
      have hd := (Connection.nextEvent_moves (c := t.connection)).dispatcher
      exact (congrArg (·.registry.get? (.completion answer.id)) hd).symm.trans he

theorem step (a : Anchored target t) (h : t.Sound) (m : Move ε) :
    (t.step m).Anchored target := by
  have ho := h.connection.isOpen
  have hb := a.connection.backend
  cases m
  case submit op o => exact ⟨a.connection.submit h.connection op o, a.strips⟩
  case setState state =>
    exact a.withBackend (Memory.setState_sends ho state) ⟨hb.session, hb.watches⟩
      fun _ he => ⟨_, List.mem_singleton.mp he⟩
  case hold on =>
    exact a.withBackend (Memory.hold_sends ho on) ⟨hb.session, hb.watches⟩ (by simp)
  case release id =>
    exact a.withBackend (Memory.release_sends ho id) (hb.talks (.release id)) (by simp)
  case releaseAll =>
    exact a.withBackend (Memory.releaseAll_sends ho) (hb.talks .releaseAll) (by simp)
  case connectOnInit on =>
    exact a.withBackend (Memory.connectOnInit_sends ho on) ⟨hb.session, hb.watches⟩ (by simp)
  case deliver =>
    simp only [Traffic.step]
    split
    case h_1    => exact a
    case h_2 hd => exact ⟨a.connection.deliverOne h.connection hd, a.strips⟩
  case dispatch => exact a.dispatch h
  case finish outcome =>
    simp only [Traffic.step]
    split
    case h_1 => exact a
    case h_2 i rest hl =>
      exact ⟨a.connection.leave (h.running i (by simp [hl])) outcome, a.strips⟩
  case reopen timeout => exact ⟨a.connection.restart timeout, a.strips⟩

theorem tick (a : Anchored target t) (h : t.Sound) (now : Int) : (t.tick now).Anchored target :=
  a.withBackend (Memory.clock_sends h.connection.isOpen now)
    ⟨a.connection.backend.session, a.connection.backend.watches⟩ (by simp)

-- Induction on the moves.
theorem runAt (a : Anchored target t) (h : t.Sound) (ms : List (Int × Move ε)) :
    (t.runAt ms).Anchored target := by
  induction ms generalizing t
  case nil          => exact a
  case cons m ms ih => exact ih ((a.tick h m.1).step (h.tick m.1) m.2) ((h.tick m.1).step m.2)

end Anchored

theorem opened_anchored (target : Target) (config : Config) (m : Memory)
    (global : Entry (Callback ε)) (timeout : Duration) :
    (opened target config m global timeout).Anchored target where
  connection := by
    rw [opened, Connection.start_eq timeout rfl]
    exact .started rfl
  strips     := by simp [opened]

theorem view_of_strips {cb : Callback ε} {answer : CompletionEvent} {path root : String}
    (hc : target.chroot = some root) (hs : cb.stripping = target.stripping)
    (hp : answer.payload = .string (some path)) :
    cb.view (.completion answer) =
      .completion { answer with payload := .string (some (target.stripChroot path)) } := by
  have : cb.stripping = some target := by simp [hs, Target.stripping, Target.isChrooted, hc]
  simp [Callback.view, this, hp, Payload.strip]

-- A client with a chroot. A call that is refused leaves everything as it is. One that is accepted
-- is confined, its reply gives the created path as the client knows it, and so do the completions
-- that are handed to callbacks.
theorem calls_confined {text root : String} {target : Target} (hp : Target.parse text = .ok target)
    (hc : target.chroot = some root) (config : Config) (m : Memory) (global : Entry (Callback ε))
    (timeout : Duration) (ms : List (Int × Move ε)) (op : Operation) (o : CallOptions ε) :
    let t := (opened target config m global timeout).runAt ms
    let c := t.connection
    let c' := (Client.submit op o c).2
    (match (Client.submit op o c).1 with
      | .error _ => c' = c
      | .ok reply => ∃ outcome,
        Confined target root (Client.call op o).op c.backend.nodes c'.backend.nodes outcome ∧
        reply = Client.reply (Client.call op o).op c.registry.nextId target
          ((Client.call op o).result outcome) ∧
        c'.inFlight ~ c.inFlight ++ outcome.fired.map .watch ++
          (Client.call op o).answer c.registry.nextId outcome) ∧
    ∀ answer path i, (.completion answer, some i) ∈ t.history →
      answer.payload = .string (some path) →
      i.entry.handler.view (.completion answer) =
        .completion { answer with payload := .string (some (target.stripChroot path)) } := by
  intro t c c'
  have h₀ : (opened target config m global timeout).Sound := opened_sound ..
  have h : t.Sound := h₀.runAt ms
  have a : t.Anchored target := (opened_anchored target config m global timeout).runAt h₀ ms
  refine ⟨?_, fun answer path i hi hs => view_of_strips hc (a.strips answer path i hi hs) hs⟩
  cases ha : Client.accept (op.watching o.hasWatcher) o.hasWatcher c
  case error => simp only [c', Client.submit_rejected ha]
  case ok =>
    obtain ⟨hs, an⟩ := h.connection.submit_eq ha
    have hs : Client.submit op o c = _ := hs
    have hm : (c.backend.logged c.registry.nextId (Client.call op o)).Anchored target :=
      ⟨a.connection.backend.session, a.connection.backend.watches⟩
    have e := Memory.execute_effect (m := c.backend.logged c.registry.nextId (Client.call op o))
      c.registry.nextId (Client.call op o).op
    simp only [c', hs]
    refine ⟨_, ?_, by rw [a.connection.made], ?_⟩
    case refine_1 =>
      rw [(Memory.Talks.answered ..).nodes]
      exact e.confined hm hc (Target.isRoot_of_parse hp hc) (Client.accept_path ha)
    case refine_2 =>
      refine (an.inFlight.append_right _).trans ?_
      simp only [Connection.inFlight, List.append_assoc]
      refine List.Perm.append_left _ ?_
      rw [← List.append_assoc]
      exact List.perm_append_comm

def app : Target :=
  ⟨"localhost:2181/app", ["localhost:2181"], some "/app"⟩

def below : Traffic Unit :=
  opened app {} (.new 0) ⟨{ receiver := () }, none⟩ ⟨0⟩

theorem calls_confined_below :
    let op : Operation := .create "/x" ByteArray.empty Acl.openUnsafe 0
    let c := below.connection
    Target.parse "localhost:2181/app" = .ok app ∧ app.chroot = some "/app" ∧
      ∃ outcome, Confined app "/app" op c.backend.nodes (Client.submit op {} c).2.backend.nodes
        outcome := by
  intro op c
  have hp : Target.parse "localhost:2181/app" = .ok app := rfl
  have h := (calls_confined hp rfl {} (.new 0) ⟨{ receiver := () }, none⟩ ⟨0⟩ [] op {}).left
  change match (Client.submit op {} c).1 with | .error _ => _ | .ok _ => _ at h
  have hr : (Client.submit op {} c).1.toOption.isSome := by decide +kernel
  split at h
  case h_1 he => simp [he, Except.toOption] at hr
  case h_2    =>
    obtain ⟨outcome, hc, _⟩ := h
    exact ⟨hp, rfl, outcome, hc⟩

-- A sequence node at the client's root becomes a sibling of it, and the path that is handed back
-- names no node.
theorem root_sequence_escapes :
    let c := below.connection
    let create := Client.submit (.create "/" ByteArray.empty Acl.openUnsafe createSequence) {} c
    create.1.toOption = some ⟨⟨1⟩, .ok, .string (some "/app0000000000")⟩ ∧
      c.backend.nodes["/app0000000000"]? = none ∧
      create.2.backend.nodes["/app0000000000"]?.isSome ∧ ¬Within "/app" "/app0000000000" ∧
      (Client.submit (.get "/app0000000000" false) {} create.2).1.toOption =
        some ⟨⟨2⟩, .noNode, .data none none⟩ := by
  decide +kernel

end Traffic
end Coordination
