import Coordination.Proofs.Client.Parallel

namespace Coordination

open Coordination.Path

@[simp] theorem Operation.watching_isSequence {op : Operation} {watch : Bool} :
    (op.watching watch).isSequence = op.isSequence := by
  cases op <;> rfl

theorem Operation.IsRegular.call {ε : Type} {op : Operation} (h : op.IsRegular)
    (o : CallOptions ε) : (Client.call op o).op.IsRegular :=
  ⟨by simpa [Client.call] using h.path, by simpa [Client.call] using h.root⟩

instance (op : Operation) : Decidable op.IsRegular :=
  decidable_of_iff (Path.IsRegular op.path ∧ ¬(op.isSequence ∧ op.path = "/"))
    ⟨fun h => ⟨h.left, h.right⟩, fun h => ⟨h.path, h.root⟩⟩

-- The client's view is what its seat shows, since whoever waits for a created path strips it.
theorem Callback.view_seen {ε : Type} {cb : Callback ε} {s : Seat} {c : CompletionEvent}
    (h : ∀ path, c.payload = .string (some path) → cb.stripping = s.target.stripping) :
    (cb.view (.completion c)).since s.depth = s.event (.completion c) := by
  by_cases hp : ∃ path, c.payload = .string (some path)
  case neg =>
    have hs (target : Target) : c.payload.strip target = c.payload := by
      unfold Payload.strip
      split
      case h_1 path he => exact absurd ⟨path, he⟩ hp
      case h_2         => rfl
    cases hc : cb.stripping <;>
      simp [view, hc, Event.since, CompletionEvent.since, Seat.event, Seat.completion,
        Seat.payload, hs]
  case pos =>
    obtain ⟨path, hp⟩ := hp
    have hs := h path hp
    unfold Target.stripping Target.isChrooted at hs
    cases hc : s.target.chroot <;> rw [hc] at hs
    case some =>
      simp only [Option.isSome_some, if_true] at hs
      simp [view, hs, Event.since, CompletionEvent.since, Seat.event, Seat.completion, Seat.payload]
    case none =>
      simp only [Option.isSome_none, Bool.false_eq_true, if_false] at hs
      simp [view, hs, Event.since, CompletionEvent.since, Seat.event, Seat.completion, Seat.payload,
        hp, Payload.strip, Target.stripChroot, hc]

namespace Traffic

variable {ε : Type} {s s' : Seat} {t t' : Traffic ε}

-- The moves of a client that keeps to its paths.
def Move.IsRegular : Move ε → Prop
  | .submit op _ => op.IsRegular
  | _            => True

instance : (m : Move ε) → Decidable m.IsRegular
  | .submit op _ => inferInstanceAs (Decidable op.IsRegular)
  | .setState _ | .hold _ | .release _ | .releaseAll | .connectOnInit _ | .deliver | .dispatch
  | .finish _ | .reopen _ => .isTrue trivial

structure Parallel (s s' : Seat) (t t' : Traffic ε) : Prop where
  connection : Connection.Parallel s s' t.connection t'.connection
  running    : t'.running.map s'.invocation = t.running.map s.invocation
  history    : t'.history.map (fun d => (s'.event d.1, d.2.map s'.invocation)) =
    t.history.map (fun d => (s.event d.1, d.2.map s.invocation))

theorem step_deliver :
    t.step .deliver = { t with
      connection := (t.connection.deliverOne.map (·.1)).getD t.connection } := by
  simp only [step]
  cases t.connection.deliverOne <;> rfl

namespace Parallel

theorem withBackend {m m' : Memory} (p : Parallel s s' t t') (h : Memory.Parallel s s' m m') :
    Parallel s s' (t.withBackend m) (t'.withBackend m') :=
  ⟨p.connection.withBackend h, p.running, p.history⟩

theorem dispatch (p : Parallel s s' t t') (h : t.Sound) (h' : t'.Sound) :
    Parallel s s' (t.step .dispatch) (t'.step .dispatch) := by
  have ⟨he, pc⟩ := p.connection.nextEvent h.connection h'.connection
  cases hn : t.connection.nextEvent.1 <;> cases hn' : t'.connection.nextEvent.1 <;>
    simp only [hn, hn', Option.map_none, Option.map_some, reduceCtorEq, Option.some.injEq] at he
  case none.none =>
    rw [step_dispatch_none hn, step_dispatch_none hn']
    exact ⟨pc, p.running, p.history⟩
  case some.some e e' =>
    have ⟨i, hi, _, _⟩ := h.connection.enter hn
    have ⟨i', hi', _, _⟩ := h'.connection.enter hn'
    have hc := pc.start he
    rw [hi, hi', Option.map_some, Option.map_some, Option.some.injEq] at hc
    rw [step_dispatch_some hn hi, step_dispatch_some hn' hi']
    refine ⟨pc.enter he, ?_, ?_⟩
    · simp only [List.map_cons, hc, p.running]
    · simp only [List.map_cons, Option.map_some, he, hc, p.history]

theorem finish (p : Parallel s s' t t') (h : t.Sound) (h' : t'.Sound) (outcome : Outcome) :
    Parallel s s' (t.step (.finish outcome)) (t'.step (.finish outcome)) := by
  have hr := p.running
  cases hl : t.running <;> cases hl' : t'.running <;>
    simp only [hl, hl', List.map_nil, List.map_cons, reduceCtorEq, List.cons.injEq] at hr
  case nil.nil => simp only [Traffic.step, hl, hl']; exact p
  case cons.cons =>
    simp only [Traffic.step, hl, hl']
    exact ⟨p.connection.leave (h.running _ (by simp [hl])) (h'.running _ (by simp [hl'])) outcome,
      hr.right, p.history⟩

theorem step {m : Move ε} (p : Parallel s s' t t') (h : t.Sound) (h' : t'.Sound)
    (hm : m.IsRegular) : Parallel s s' (t.step m) (t'.step m) := by
  have pb := p.connection.backend
  cases m
  case submit op o =>
    have hs := p.connection.submit (o := o) h.connection h'.connection (hm.call o)
    exact ⟨hs.right, p.running, p.history⟩
  case setState state => exact p.withBackend (pb.setState state)
  case hold on => exact p.withBackend (pb.hold on)
  case release id => exact p.withBackend (pb.release id)
  case releaseAll => exact p.withBackend pb.releaseAll
  case connectOnInit on => exact p.withBackend (pb.connect on)
  case deliver =>
    rw [step_deliver, step_deliver]
    exact ⟨p.connection.delivered h.connection h'.connection, p.running, p.history⟩
  case dispatch => exact p.dispatch h h'
  case finish outcome => exact p.finish h h' outcome
  case reopen timeout => exact ⟨p.connection.restart timeout, p.running, p.history⟩

theorem tick (p : Parallel s s' t t') (now now' : Int) :
    Parallel s s' (t.tick now) (t'.tick now') :=
  p.withBackend { p.connection.backend with }

-- Induction on the moves; their times do not matter.
theorem runAt {ms ms' : List (Int × Move ε)} (p : Parallel s s' t t') (h : t.Sound)
    (h' : t'.Sound) (hs : ms'.map (·.2) = ms.map (·.2)) (hm : ∀ m ∈ ms, m.2.IsRegular) :
    Parallel s s' (t.runAt ms) (t'.runAt ms') := by
  induction ms generalizing t t' ms'
  case nil =>
    cases List.map_eq_nil_iff.mp hs
    exact p
  case cons d ms ih =>
    obtain ⟨now, _⟩ := d
    obtain ⟨⟨now', m⟩, rest, rfl, rfl, hrest⟩ := List.map_eq_cons_iff.mp hs
    have hr : m.IsRegular := hm _ List.mem_cons_self
    have p := (p.tick now now').step (h.tick now) (h'.tick now') hr
    have p := ih p ((h.tick now).step m) ((h'.tick now').step m) hrest
      fun d hd => hm d (List.mem_cons_of_mem _ hd)
    exact p

end Parallel

theorem opened_parallel (s s' : Seat) (clock clock' : Int) (connects : Bool) (config : Config)
    (global : Entry (Callback ε)) (timeout : Duration) :
    Parallel s s' (opened s.target config (.fresh clock connects) global timeout)
      (opened s'.target config (.fresh clock' connects) global timeout) where
  connection := by
    rw [opened, opened, Connection.start_eq timeout rfl, Connection.start_eq timeout rfl]
    exact .started (Memory.fresh_parallel s s' clock clock' connects) rfl rfl rfl rfl
  running    := rfl
  history    := rfl

-- What the application has seen: the events as they were handed to it, and who got them. Times are
-- left out, and transactions are counted from a later one on.
def seen (zxid : Int) (t : Traffic ε) : List (Event × Option (ε × Option Context)) :=
  t.history.map fun (e, i) =>
    ((i.elim e (·.entry.handler.view e)).since zxid,
      i.map fun i => (i.entry.handler.receiver, i.entry.context))

theorem seen_eq (h : t.Sound) (a : t.Anchored s.target) :
    t.seen s.depth =
      (t.history.map (fun d => (s.event d.1, d.2.map s.invocation))).map fun d =>
        (d.1, d.2.map fun i => (i.entry.handler.receiver, i.entry.context)) := by
  rw [List.map_map]
  refine List.map_congr_left fun (e, i) hd => ?_
  have hs := h.served e i hd
  cases i
  case none => cases hs
  case some i =>
    refine Prod.ext ?_ rfl
    cases e
    case watch        => rfl
    case completion c => exact Callback.view_seen fun path hp => a.strips c path i hd hp

-- Two clients, one without a chroot and one with one, over services that were fresh when they were
-- opened. After the same moves the next call is answered alike, and what their handlers have seen
-- is the same, if transactions are counted from those on that made the chroot.
theorem chroot_transparent {plain rooted : Target} {root : String} (hn : plain.chroot = none)
    (hc : rooted.chroot = some root) (hr : Path.IsRegular root) (hne : root ≠ "/")
    (config : Config) (global : Entry (Callback ε)) (timeout : Duration) (clock clock' : Int)
    (connects : Bool) (ms ms' : List (Int × Move ε)) (hs : ms'.map (·.2) = ms.map (·.2))
    (hm : ∀ m ∈ ms, m.2.IsRegular) :
    let t := (opened plain config (.fresh clock connects) global timeout).runAt ms
    let t' := (opened rooted config (.fresh clock' connects) global timeout).runAt ms'
    let depth := (Path.segments root).length
    t'.seen depth = t.seen 0 ∧ ∀ op (o : CallOptions ε), op.IsRegular →
      (Client.submit op o t'.connection).1.map (·.since depth) =
        (Client.submit op o t.connection).1.map (·.since 0) := by
  intro t t' depth
  have hb : Path.segments root ≠ [] := fun hs => hne (hr.symm.trans (congrArg join hs))
  let s : Seat := ⟨plain, [], proper_nil, hn⟩
  have hc' : rooted.chroot = if Path.segments root = [] then none
      else some (join (Path.segments root)) := by
    rw [if_neg hb, hr]
    exact hc
  let s' : Seat := ⟨rooted, Path.segments root, proper_segments root, hc'⟩
  have h₀ : (opened plain config (.fresh clock connects) global timeout).Sound := opened_sound ..
  have h₀' : (opened rooted config (.fresh clock' connects) global timeout).Sound := opened_sound ..
  have h : t.Sound := h₀.runAt ms
  have h' : t'.Sound := h₀'.runAt ms'
  have a : t.Anchored s.target := (opened_anchored ..).runAt h₀ ms
  have a' : t'.Anchored s'.target := (opened_anchored ..).runAt h₀' ms'
  have p : Parallel s s' t t' :=
    (opened_parallel s s' clock clock' connects config global timeout).runAt h₀ h₀' hs hm
  constructor
  case left =>
    change t'.seen s'.depth = t.seen s.depth
    rw [seen_eq h' a', seen_eq h a, p.history]
  case right =>
    intro op o hop
    exact (p.connection.submit h.connection h'.connection (hop.call o)).left

def home : Target :=
  ⟨"localhost:2181", ["localhost:2181"], none⟩

def away : Target :=
  ⟨"localhost:2181/srv/app", ["localhost:2181"], some "/srv/app"⟩

-- A watch that is set off by a node whose creation is answered later, and a sequence node below it.
def visit : List (Move Unit) :=
  [.submit (.getChildren "/" false) { watcher := some () },
    .submit (.create "/a" ByteArray.empty Acl.openUnsafe 0) { callback := some () },
    .submit (.create "/a/b" ByteArray.empty Acl.openUnsafe createSequence) {},
    .deliver, .deliver, .deliver, .dispatch, .dispatch, .dispatch]

theorem chroot_transparent_visit :
    let global : Entry (Callback Unit) := ⟨{ receiver := () }, none⟩
    let t := (opened home {} (.fresh 0 true) global ⟨0⟩).runAt (visit.map (0, ·))
    let t' := (opened away {} (.fresh 7 true) global ⟨0⟩).runAt (visit.map (8, ·))
    home.chroot = none ∧ away.chroot = some "/srv/app" ∧ Path.IsRegular "/srv/app" ∧
      "/srv/app" ≠ "/" ∧ (∀ m ∈ visit, m.IsRegular) ∧
      t'.seen 2 = t.seen 0 ∧ (t.seen 0).length = 3 := by
  intro global t t'
  have hr : Path.IsRegular "/srv/app" := by decide +kernel
  have hm : ∀ m ∈ visit, m.IsRegular := by decide +kernel
  have hd : ((Path.segments "/srv/app").length : Int) = 2 := by decide +kernel
  have hn : home.chroot = none := rfl
  have hc : away.chroot = some "/srv/app" := rfl
  have h := (chroot_transparent hn hc hr (by decide) {} global ⟨0⟩
    0 7 true (visit.map (0, ·)) (visit.map (8, ·)) rfl
    fun d h => have ⟨m, hv, he⟩ := List.mem_map.mp h; he ▸ hm m hv).left
  rw [hd] at h
  exact ⟨rfl, rfl, hr, by decide, hm, h, by decide +kernel⟩

end Traffic
end Coordination
