import Coordination.Proofs.Client.Acts
import Coordination.Proofs.Memory.Lasting

namespace Coordination

open Memory (Still)

namespace Connection

-- What concerns a connection that has been made. The halves of a closing come one by one, since
-- anything can happen while the dispatch thread is waited for.
inductive Turn (ε : Type)
  | open (timeout : Duration)
  | act (a : Act ε)
  -- The second half of a closing.
  | release
  -- An event does not come from the queue, but from a thread that a closing has waited for in vain.
  | stray (event : Event)

section

variable {ε : Type}

def turn (c : Connection Memory (Callback ε)) : Turn ε → Connection Memory (Callback ε)
  | .open timeout => (c.start timeout).2.1
  | .act a => c.act a
  | .release => c.release.2.1
  | .stray event => (c.enter event).2

def turns (c : Connection Memory (Callback ε)) (ts : List (Turn ε)) :
    Connection Memory (Callback ε) :=
  ts.foldl turn c

def closeDuring (waiting : List (Act ε)) (c : Connection Memory (Callback ε)) :
    Except Error Unit × Connection Memory (Callback ε) :=
  if c.isIdle then (.ok (), c)
  else
    let (result, c, _) := (c.quiesce.1.acts waiting).release
    (result, c)

def reopen (timeout : Duration) (waiting : List (Act ε)) (c : Connection Memory (Callback ε)) :
    Except Error ConnectionState × Connection Memory (Callback ε) :=
  match c.closeDuring waiting with
  | (.error e, c) => (.error e, c)
  | (.ok (), c) =>
    let (result, c, _) := c.start timeout
    (result, c)

-- The identifiers given out.
def granting (c : Connection Memory (Callback ε)) : Turn ε → List RequestId
  | .act (.submit op o) =>
    match Client.accept (op.watching o.hasWatcher) o.hasWatcher c with
    | .ok () => [c.registry.nextId]
    | .error _ => []
  | .act (.allocate ..) => [c.registry.nextId]
  | _ => []

def granted : List (Turn ε) → Connection Memory (Callback ε) → List RequestId
  | [], _ => []
  | t :: ts, c => c.granting t ++ granted ts (c.turn t)

end

variable {ε : Type} {c c' c'' : Connection Memory (Callback ε)}

theorem turns_append (ts ts' : List (Turn ε)) : c.turns (ts ++ ts') = (c.turns ts).turns ts' :=
  List.foldl_append

theorem turns_acts (as : List (Act ε)) : c.turns (as.map .act) = c.acts as :=
  List.foldl_map

-- What a connection was made with stays, and identifiers go on.
structure Proceeds (ids : List RequestId) (c c' : Connection Memory (Callback ε)) : Prop where
  kin      : Kin c c'
  numbered : c.registry.nextId.number ≤ c'.registry.nextId.number
  granted  : ∀ id ∈ ids, id.number < c'.registry.nextId.number

namespace Proceeds

variable {ids ids' : List RequestId}

theorem of_nextId (k : Kin c c') (h : c'.registry.nextId = c.registry.nextId) :
    Proceeds [] c c' :=
  ⟨k, Int.le_of_eq (by rw [h]), fun _ h => absurd h List.not_mem_nil⟩

theorem of_attends (h : Attends c c') : Proceeds [] c c' :=
  .of_nextId h.kin h.nextId

theorem of_grant (k : Kin c c') (h : c.registry.nextId.number < c'.registry.nextId.number) :
    Proceeds [c.registry.nextId] c c' where
  kin          := k
  numbered     := Int.le_of_lt h
  granted _ hm := List.mem_singleton.mp hm ▸ h

theorem trans (p : Proceeds ids c c') (p' : Proceeds ids' c' c'') :
    Proceeds (ids ++ ids') c c'' where
  kin          := p.kin.trans p'.kin
  numbered     := Int.le_trans p.numbered p'.numbered
  granted id h := (List.mem_append.mp h).elim
    (fun h => Int.lt_of_lt_of_le (p.granted id h) p'.numbered) (p'.granted id)

end Proceeds

theorem act_proceeds (a : Act ε) : Proceeds (c.granting (.act a)) c (c.act a) := by
  cases a
  case submit op o =>
    simp only [granting, act]
    cases h : Client.accept (op.watching o.hasWatcher) o.hasWatcher c
    case error => rw [Client.submit_rejected h]; exact .of_nextId .refl rfl
    case ok =>
      rw [Client.submit_accepted h]
      exact .of_grant ⟨rfl, rfl, rfl⟩ Registry.nextId_lt_enroll
  case allocate    => exact .of_grant ⟨rfl, rfl, rfl⟩ (Int.lt_succ _)
  case hook | tick => exact .of_nextId ⟨rfl, rfl, rfl⟩ rfl
  case deliver =>
    refine deliver_keeps (P := Proceeds [] c) (.of_nextId .refl rfl) fun c' _ h => ?_
    exact .of_nextId (deliverOne_kin h) (by rw [registry, (deliverOne_moves h).dispatcher]; rfl)
  case take     => exact .of_attends .nextEvent
  case dispatch => exact .of_attends <| .passOn .nextEvent
  case pop      => exact .of_attends <| .passOn .popped
  case finish   => exact .of_attends <| .leave ..
  case handOut  => exact .of_attends .handOut
  case read     => exact .of_attends ⟨rfl, rfl⟩
  case quiesce =>
    exact .of_nextId quiesce_kin (by rw [act, registry, quiesce_moves.dispatcher]; rfl)

theorem turn_proceeds (t : Turn ε) : Proceeds (c.granting t) c (c.turn t) := by
  cases t
  case «open» timeout =>
    cases hr : c.running
    case true  => rw [turn, start_running timeout hr]; exact .of_nextId .refl rfl
    case false => rw [turn, start_eq timeout hr]; exact .of_nextId ⟨rfl, rfl, rfl⟩ rfl
  case act a       => exact act_proceeds a
  case release     => exact .of_nextId release_kin rfl
  case stray event => exact .of_attends <| .enter event

theorem turns_proceeds (ts : List (Turn ε)) : Proceeds (granted ts c) c (c.turns ts) := by
  induction ts generalizing c
  case nil          => exact .of_nextId .refl rfl
  case cons t ts ih => exact (turn_proceeds t).trans ih

theorem release_still : Still c.backend c.release.2.1.backend := by
  simp only [release]
  split
  case isTrue  => exact .refl
  case isFalse => exact ⟨rfl, rfl, rfl, rfl, rfl, rfl⟩

-- While a session is there, the root of the client is, too.
structure Rooted (target : Target) (c : Connection Memory (Callback ε)) : Prop where
  made    : c.target = target
  session : c.running → c.backend.Rooted target

namespace Rooted

variable {target : Target}

theorem act (r : Rooted target c) (a : Act ε) : Rooted target (c.act a) := by
  refine ⟨(act_proceeds a).kin.target.trans r.made, fun h => ?_⟩
  have rb := r.session <| act_running a h
  rcases act_backend (c := c) a with hs | ⟨call, _, hp, hb⟩
  · exact rb.still hs
  · exact hb ▸ rb.issue hp

theorem turn (r : Rooted target c) (t : Turn ε) : Rooted target (c.turn t) := by
  refine ⟨(turn_proceeds t).kin.target.trans r.made, fun h => ?_⟩
  cases t
  case «open» timeout =>
    cases hr : c.running
    case true =>
      rw [Connection.turn, start_running timeout hr]
      exact r.session hr
    case false =>
      rw [Connection.turn, start_eq timeout hr, ← r.made]
      exact .init c.backend c.target
  case act a => exact (r.act a).session h
  case release => exact (r.session h).still release_still
  case stray event =>
    rw [Connection.turn, (Attends.enter event).backend]
    exact r.session <| (Attends.enter event).running ▸ h

theorem turns (r : Rooted target c) (ts : List (Turn ε)) : Rooted target (c.turns ts) := by
  induction ts generalizing c
  case nil          => exact r
  case cons t ts ih => exact ih <| r.turn t

end Rooted

theorem reopen_nil (timeout : Duration) :
    c.reopen timeout [] = ((c.restart timeout).1, (c.restart timeout).2.1) := by
  have hc : c.closeDuring [] = (c.stop.1, c.stop.2.1) := by
    simp only [closeDuring, stop]
    split <;> rfl
  simp only [reopen, restart, hc]
  rcases c.stop with ⟨_ | _, _, _⟩ <;> rfl

theorem closeDuring_eq (h : c.running) (waiting : List (Act ε)) :
    c.closeDuring waiting = (.ok (), (c.quiesce.1.acts waiting).release.2.1) := by
  rw [closeDuring, if_neg (by simp [isIdle, h])]
  refine Prod.ext ?_ rfl
  simp only [release]
  split <;> rfl

-- The session that follows is started on what the last one has left.
theorem reopen_eq (h : c.running) (timeout : Duration) (waiting : List (Act ε)) :
    let closed := (c.quiesce.1.acts waiting).release.2.1
    Still c.backend closed.backend ∧
      c.reopen timeout waiting = (.ok closed.started.backend.state, closed.started) := by
  intro closed
  have hq : c.quiesce.1.running = false := quiesce_moves.running
  have ⟨hr, hs⟩ := acts_still hq waiting
  have hr : closed.running = false := hr
  refine ⟨quiesce_still.trans hs |>.trans release_still, ?_⟩
  simp only [reopen, closeDuring_eq h]
  rw [start_answer timeout hr, start_eq timeout hr]

-- What a session starts with, after some identifiers have been given out.
structure Renewed (global : Entry (Callback ε)) (ids : List RequestId)
    (old new : Connection Memory (Callback ε)) : Prop where
  running      : new.running
  registry     : ∀ slot, new.registry.get? slot =
    if slot = .watcher .global then some global else none
  fresh        : ∀ id ∈ ids, id.number < new.registry.nextId.number
  session      : new.backend.sessionId = old.backend.sessionId + 1
  dataWatches  : new.backend.dataWatches = []
  childWatches : new.backend.childWatches = []
  held         : new.backend.held = []
  nodes        : ∀ path : String, new.backend.nodes[path]? =
    old.backend.nodes[path]?.filter fun node => !node.isEphemeral
  -- Nothing comes out of the queue, now or later, but what the session was told of.
  heard        : ∀ as, heard as new ++ (new.acts as).upcoming =
    (if new.backend.connectOnInit then [.watch (.session .connected)] else []) ++ emitted as new

theorem started_flows (as : List (Act ε)) :
    heard as c.started ++ (c.started.acts as).upcoming =
      (if c.started.backend.connectOnInit then [.watch (.session .connected)] else []) ++
        emitted as c.started := by
  have hc : c.started.backend.channel = _ := c.backend.init_stream c.target
  have ho : c.started.backend.connectOnInit = c.backend.connectOnInit :=
    (c.backend.init_begins c.target).connectOnInit
  have s : c.started.Streams := ⟨rfl, by rw [hc]; rfl⟩
  have hu : c.started.upcoming =
      if c.started.backend.connectOnInit then [.watch (.session .connected)] else [] := by
    rw [upcoming, hc, ho]
    cases c.backend.connectOnInit <;> rfl
  rw [← hu]
  exact (acts_flows s as).events

-- Whatever a client has been through, a session that it starts anew knows nothing of the last one.
theorem reopen_renewed {target : Target} {config : Config} {m : Memory}
    {global : Entry (Callback ε)} {past : List (Turn ε)}
    (h : ((new target config m global).turns past).running) (timeout : Duration)
    (waiting : List (Act ε)) :
    let old := (new target config m global).turns past
    let ids := granted (past ++ .act .quiesce :: waiting.map .act) (new target config m global)
    ∃ state next, old.reopen timeout waiting = (.ok state, next) ∧ Renewed global ids old next := by
  intro old ids
  let closed := (old.quiesce.1.acts waiting).release.2.1
  have ⟨hs, hr⟩ := reopen_eq h timeout waiting
  have p : Proceeds ids (new target config m global) closed := by
    have p := turns_proceeds (c := new target config m global)
      (past ++ .act .quiesce :: waiting.map .act)
    have hl : old.turns (.act .quiesce :: waiting.map .act) = old.quiesce.1.acts waiting :=
      turns_acts waiting
    rw [turns_append, hl] at p
    exact ⟨p.kin.trans release_kin, p.numbered, p.granted⟩
  have hn : closed.target = target := p.kin.target
  have r : Rooted target (new target config m global) := ⟨rfl, nofun⟩
  have rb : closed.backend.Rooted target := ((r.turns past).session h).still hs
  have b : closed.backend.Begins closed.started.backend := closed.backend.init_begins closed.target
  refine ⟨_, closed.started, hr, ?_⟩
  constructor
  case running      => rfl
  case registry     =>
    have hg : closed.global = global := p.kin.global
    exact fun slot => hg ▸ closed.registry.get?_clear closed.global
  case fresh        => exact p.granted
  case session      => exact b.sessionId.trans <| congrArg (· + 1) hs.sessionId
  case dataWatches  => exact b.dataWatches
  case childWatches => exact b.childWatches
  case held         => exact b.held
  case nodes        =>
    intro path
    change (closed.backend.init closed.target).nodes[path]? = _
    rw [hn, rb.nodes_init, Tree.getElem?_sweep, hs.nodes]
  case heard        => exact started_flows

-- A session with an ephemeral node, a watch, a completion kept back and events on their way.
def eventful : List (Turn Unit) := [
  .open ⟨0⟩,
  .act (.submit (.create "/e" ByteArray.empty Acl.openUnsafe createEphemeral) {}),
  .act (.hook (.hold true) rfl),
  .act (.submit (.get "/e" true) { callback := some (), watcher := some () }),
  .act .deliver,
  .act (.hook (.setState .connected) rfl)]

theorem reopen_renewed_eventful :
    let fresh : Connection Memory (Callback Unit) :=
      new ⟨"localhost", ["localhost"], none⟩ {} (.new 0) ⟨{ receiver := () }, none⟩
    let ids := granted (eventful ++ [.act .quiesce, .act .pop]) fresh
    (fresh.turns eventful).running ∧ ids = [⟨1⟩, ⟨2⟩] ∧
      ∃ state next, (fresh.turns eventful).reopen ⟨0⟩ [.pop] = (.ok state, next) ∧
        Renewed fresh.global ids (fresh.turns eventful) next := by
  have h : ((new ⟨"localhost", ["localhost"], none⟩ {} (Memory.new 0)
      ⟨{ receiver := () }, none⟩).turns eventful).running := by decide +kernel
  exact ⟨h, by decide +kernel, reopen_renewed h ⟨0⟩ [.pop]⟩

end Connection
end Coordination
