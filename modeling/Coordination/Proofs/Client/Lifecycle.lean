import Coordination.Proofs.Client.Registration
import Coordination.Proofs.Connection.Session

namespace Coordination

-- A call that concerns the sessions of a backend.
inductive SessionCall where
  | started
  -- The backend could not start a session.
  | refused
  | ended
  deriving DecidableEq

namespace SessionCall

-- Whether there is a session after some calls; `none` if one was started on top of another, or
-- ended without being there.
def follow : Bool → List SessionCall → Option Bool
  | up, [] => some up
  | false, started :: calls => follow true calls
  | false, refused :: calls => follow false calls
  | true, ended :: calls => follow false calls
  | _, _ => none

variable {up : Bool} {calls : List SessionCall}

theorem follow_append (more : List SessionCall) :
    follow up (calls ++ more) = (follow up calls).bind (follow · more) := by
  induction calls generalizing up
  case nil => rfl
  case cons call calls ih => cases up <;> cases call <;> simp [follow, ih]

-- Every session that was started has been ended once, but for the one that is still there.
theorem count_of_follow {up' : Bool} (h : follow up calls = some up') :
    calls.count ended + up'.toNat = calls.count started + up.toNat := by
  induction calls generalizing up
  case nil => cases h; rfl
  case cons call calls ih =>
    cases up <;> cases call <;> simp only [follow, reduceCtorEq] at h
    all_goals
      have := ih h
      simp only [Bool.toNat_false, Bool.toNat_true] at this
      simp
      omega

end SessionCall

-- A backend together with the calls that concern its sessions, the oldest first.
structure Tracked (β : Type) where
  inner : β
  calls : List SessionCall

namespace Tracked

variable {β : Type} [Backend β]

def init (target : Target) (timeout : Duration) (b : Tracked β) :
    Except Error Unit × Tracked β :=
  match Backend.init target timeout b.inner with
  | (.ok (), inner) => (.ok (), ⟨inner, b.calls ++ [.started]⟩)
  | (.error e, inner) => (.error e, ⟨inner, b.calls ++ [.refused]⟩)

def close (b : Tracked β) : Except Error Unit × Tracked β :=
  let (result, inner) := Backend.close b.inner
  (result, ⟨inner, b.calls ++ [.ended]⟩)

instance : Backend (Tracked β) where
  init := init
  next b := (Backend.next b.inner).map fun (answer, inner) => (answer, { b with inner := inner })
  wake b := { b with inner := Backend.wake b.inner }
  close := close
  state b := Backend.state b.inner
  issue id call b :=
    let (result, inner) := Backend.issue id call b.inner
    (result, { b with inner := inner })
  session b := Backend.session b.inner
  backlog b := Backend.backlog b.inner

theorem calls_next {b b' : Tracked β} {answer : Except Error Item}
    (h : Backend.next b = some (answer, b')) : b'.calls = b.calls := by
  have ⟨_, _, h⟩ := Option.map_eq_some_iff.mp h
  cases h
  rfl

theorem calls_init (target : Target) (timeout : Duration) (b : Tracked β) :
    (init target timeout b).2.calls =
      b.calls ++ [if (init target timeout b).1.isOk then .started else .refused] := by
  unfold init
  split <;> rfl

end Tracked

namespace Connection

-- What goes on beside the life of a connection: events are moved, taken and handed out, handlers
-- end, and calls are made.
inductive Work (ε : Type)
  | deliver
  -- The dispatch thread takes the next item.
  | pop
  -- The application takes the next event.
  | take
  | dispatch (event : Event)
  | finish (i : Invocation (Callback ε)) (outcome : Outcome)
  | submit (op : Operation) (o : CallOptions ε)
  | handOut

-- What concerns a connection that has been made. Closing waits for the dispatch thread, which does
-- its work meanwhile.
inductive Op (ε : Type)
  | open (timeout : Duration)
  | close (waiting : List (Work ε))
  | reopen (timeout : Duration) (waiting : List (Work ε))
  | work (w : Work ε)

section

variable {β ε : Type} [Backend β] {c : Connection β (Callback ε)} {timeout : Duration}

def work (c : Connection β (Callback ε)) : Work ε → Connection β (Callback ε)
  | .deliver => (c.deliverOne.map Prod.fst).getD c
  | .pop => { c with queue := c.queue.map (·.pop.2) }
  | .take => c.nextEvent.2
  | .dispatch event => (c.enter event).2
  | .finish i outcome => c.leave i outcome
  | .submit op o => (Client.submit op o c).2
  | .handOut => c.handOut.2

def workAll (c : Connection β (Callback ε)) (ws : List (Work ε)) : Connection β (Callback ε) :=
  ws.foldl work c

def shut (waiting : List (Work ε)) (c : Connection β (Callback ε)) :
    Except Error Unit × Connection β (Callback ε) :=
  if c.isIdle then (.ok (), c)
  else
    let c := c.quiesce.1.workAll waiting
    (c.release.1, c.release.2.1)

def perform (c : Connection β (Callback ε)) : Op ε → Except Error Unit × Connection β (Callback ε)
  | .open timeout => ((c.start timeout).1.map fun _ => (), (c.start timeout).2.1)
  | .close waiting => c.shut waiting
  | .reopen timeout waiting =>
    match c.shut waiting with
    | (.error e, c) => (.error e, c)
    | (.ok (), c) => ((c.start timeout).1.map fun _ => (), (c.start timeout).2.1)
  | .work w => (.ok (), c.work w)

def live (c : Connection β (Callback ε)) (ops : List (Op ε)) : Connection β (Callback ε) :=
  ops.foldl (fun c op => (c.perform op).2) c

theorem shut_nil : c.shut [] = (c.stop.1, c.stop.2.1) := by
  simp only [shut, stop]
  split <;> rfl

theorem perform_reopen_nil :
    c.perform (.reopen timeout []) =
      ((c.restart timeout).1.map fun _ => (), (c.restart timeout).2.1) := by
  simp only [perform, restart, shut_nil]
  rcases c.stop with ⟨_ | _, _, _⟩ <;> rfl

theorem shut_idle (h : c.isIdle) (waiting : List (Work ε)) : c.shut waiting = (.ok (), c) := by
  rw [shut, if_pos h]

end

variable {β ε : Type} [Backend β] {c c' c'' : Connection (Tracked β) (Callback ε)}
  {timeout : Duration}

-- Neither the life of the connection nor the watcher of the whole session is touched.
structure Aside (c c' : Connection (Tracked β) (Callback ε)) : Prop where
  running  : c'.running = c.running
  closed   : c'.closed = c.closed
  queue    : c'.queue.isSome = c.queue.isSome
  global   : c'.global = c.global
  calls    : c'.backend.calls = c.backend.calls
  numbered : c.registry.nextId.number ≤ c'.registry.nextId.number
  watched  : 0 < c.registry.nextId.number →
    c'.registry.get? (.watcher .global) = c.registry.get? (.watcher .global)

namespace Aside

omit [Backend β] in
theorem refl : Aside c c :=
  ⟨rfl, rfl, rfl, rfl, rfl, Int.le_refl _, fun _ => rfl⟩

omit [Backend β] in
theorem trans (a : Aside c c') (a' : Aside c' c'') : Aside c c'' where
  running    := a'.running.trans a.running
  closed     := a'.closed.trans a.closed
  queue      := a'.queue.trans a.queue
  global     := a'.global.trans a.global
  calls      := a'.calls.trans a.calls
  numbered   := Int.le_trans a.numbered a'.numbered
  watched hn := (a'.watched <| Int.lt_of_lt_of_le hn a.numbered).trans (a.watched hn)

omit [Backend β] in
theorem of_moves (m : Moves c c') (hq : c'.queue.isSome = c.queue.isSome)
    (hg : c'.global = c.global) (hc : c'.backend.calls = c.backend.calls) : Aside c c' where
  running   := m.running
  closed    := m.closed
  queue     := hq
  global    := hg
  calls     := hc
  numbered  := Int.le_of_eq (by rw [registry, registry, m.dispatcher])
  watched _ := by rw [registry, registry, m.dispatcher]

end Aside

-- A call leaves its traces in the backend and in the registry only.
theorem submit_snd (op : Operation) (o : CallOptions ε) :
    ∃ backend dispatcher, (Client.submit op o c).2 =
      { c with backend := backend, dispatcher := dispatcher } ∧
      backend.calls = c.backend.calls := by
  cases h : Client.accept (op.watching o.hasWatcher) o.hasWatcher c
  case error => exact ⟨_, _, congrArg Prod.snd <| Client.submit_rejected h, rfl⟩
  case ok    => exact ⟨_, _, congrArg Prod.snd <| Client.submit_accepted h, rfl⟩

omit [Backend β] in
theorem enqueue_aside (item : Item) : Aside c (c.enqueue item).1 := by
  refine .of_moves (enqueue_moves item) ?_ ?_ ?_ <;> unfold enqueue <;> split <;> simp_all

theorem deliverOne_aside {records : List Record} (h : c.deliverOne = some (c', records)) :
    Aside c c' := by
  have hm := deliverOne_moves h
  rcases deliverOne_cases h with ⟨e, backend, hn, rfl⟩ | ⟨_, _, hn, _, rfl⟩
  · have a := enqueue_aside (c := { c with backend := backend }) (.event e)
    exact .of_moves hm a.queue a.global (a.calls.trans <| Tracked.calls_next hn)
  · exact .of_moves hm rfl rfl (Tracked.calls_next hn)

theorem deliverUpTo_aside (n : Nat) : Aside c (deliverUpTo n c).1 :=
  deliverUpTo_keeps (fun _ _ _ a h => a.trans <| deliverOne_aside h) n .refl

theorem quiesce_aside : Aside { c with running := false } c.quiesce.1 := by
  let woken := { c with running := false, backend := Backend.wake c.backend }
  have h₁ : Aside { c with running := false } woken := .of_moves ⟨rfl, rfl, rfl⟩ rfl rfl rfl
  have h₂ : Aside woken woken.deliver.1 := deliverUpTo_aside _
  have h₃ : Aside woken.deliver.1 { woken.deliver.1 with delivering := false } :=
    .of_moves ⟨rfl, rfl, rfl⟩ rfl rfl rfl
  exact h₁.trans h₂ |>.trans h₃ |>.trans <| enqueue_aside .shutdown

theorem work_aside (w : Work ε) : Aside c (c.work w) := by
  cases w
  case deliver =>
    simp only [work]
    cases h : c.deliverOne
    case none => exact .refl
    case some => exact deliverOne_aside h
  case pop => exact .of_moves ⟨rfl, rfl, rfl⟩ (by simp [work]) rfl rfl
  case take =>
    refine .of_moves nextEvent_moves ?_ ?_ ?_ <;> simp only [work, nextEvent] <;> split <;>
      try split
    all_goals simp_all
  case handOut =>
    simp only [work, handOut]
    split
    case h_1   => exact .refl
    case h_2 h => exact .of_moves ⟨rfl, rfl, rfl⟩ (by simp [h]) rfl rfl
  case dispatch event =>
    have hs : (c.enter event).2 = { c with dispatcher := (c.enter event).2.dispatcher } := enter_snd
    refine ⟨?_, ?_, ?_, ?_, ?_, Int.le_of_eq (by rw [work, enter_nextId]), fun _ => ?_⟩
    case refine_6 => exact get?_enter_of_permanent rfl
    all_goals rw [work, hs]
  case finish i outcome =>
    refine ⟨rfl, rfl, rfl, rfl, rfl, ?_, fun _ => ?_⟩
    · exact Int.le_of_eq (congrArg RequestId.number (Dispatcher.finish_nextId i outcome).symm)
    · refine (Dispatcher.get?_finish i outcome).trans <| if_neg fun h => ?_
      cases Invocation.isSingleUse_of_rearms h
  case submit op o =>
    obtain ⟨backend, d, hs, hc⟩ := submit_snd (c := c) op o
    refine ⟨?_, ?_, ?_, ?_, ?_, Client.submit_nextId, fun hn => ?_⟩
    case refine_6 =>
      refine Client.get?_submit_of_ne fun h => ?_
      rw [← h] at hn
      cases hn
    all_goals simp [work, hs, hc]

-- Induction on the work.
theorem workAll_aside (ws : List (Work ε)) : Aside c (c.workAll ws) := by
  induction ws generalizing c
  case nil          => exact .refl
  case cons w ws ih => exact (work_aside w).trans ih

-- All parts of a connection say the same.
structure Coherent (c : Connection (Tracked β) (Callback ε)) : Prop where
  closed  : c.closed = !c.running
  queue   : c.queue.isSome = c.running
  watched : c.running → c.registry.get? (.watcher .global) = some c.global

-- A coherent connection whose sessions have been paired so far.
structure Settled (c : Connection (Tracked β) (Callback ε)) : Prop extends Coherent c where
  calls    : SessionCall.follow false c.backend.calls = some c.running
  numbered : 0 < c.registry.nextId.number

omit [Backend β] in
theorem new_settled (target : Target) (config : Config) (b : β) (global : Entry (Callback ε)) :
    Settled (new target config ⟨b, []⟩ global) where
  closed   := rfl
  queue    := rfl
  watched  := nofun
  calls    := rfl
  numbered := (by decide : 0 < RequestId.first.number)

namespace Settled

omit [Backend β] in
theorem aside (s : Settled c) (a : Aside c c') : Settled c' where
  closed    := by rw [a.closed, a.running, s.closed]
  queue     := by rw [a.queue, a.running, s.queue]
  watched h := by rw [a.watched s.numbered, a.global]; exact s.watched (a.running ▸ h)
  calls     := by rw [a.calls, a.running, s.calls]
  numbered  := Int.lt_of_lt_of_le s.numbered a.numbered

theorem open_error {e : Error} {backend : Tracked β} (s : Settled c) (timeout : Duration)
    (hr : c.running = false)
    (h : Tracked.init c.target c.config.sessionTimeout c.backend = (.error e, backend)) :
    (c.start timeout).1 = .error e ∧ Settled (c.start timeout).2.1 ∧
      (c.start timeout).2.1.running = false := by
  have ⟨h₁, h₂⟩ := start_error timeout hr h
  have hc := Tracked.calls_init c.target c.config.sessionTimeout c.backend
  simp only [h] at hc
  rw [h₁, h₂]
  refine ⟨rfl, ⟨⟨s.closed, s.queue, fun h => ?_⟩, ?_, s.numbered⟩, hr⟩
  · cases hr.symm.trans h
  · change SessionCall.follow false backend.calls = some c.running
    rw [hc, SessionCall.follow_append, s.calls, hr]
    rfl

theorem open_ok {backend : Tracked β} (s : Settled c) (timeout : Duration)
    (hr : c.running = false)
    (h : Tracked.init c.target c.config.sessionTimeout c.backend = (.ok (), backend)) :
    (c.start timeout).1 = .ok (Backend.state backend) ∧ Settled (c.start timeout).2.1 ∧
      (c.start timeout).2.1.running := by
  have ⟨h₁, h₂⟩ := start_ok timeout hr h
  have hc := Tracked.calls_init c.target c.config.sessionTimeout c.backend
  simp only [h] at hc
  rw [h₁, h₂]
  refine ⟨rfl, ⟨⟨rfl, rfl, fun _ => ?_⟩, ?_, s.numbered⟩, rfl⟩
  · exact (Registry.get?_clear c.global).trans <| if_pos rfl
  · change SessionCall.follow false backend.calls = some true
    rw [hc, SessionCall.follow_append, s.calls, hr]
    rfl

-- Starting a session while there is one changes nothing.
theorem start (s : Settled c) (timeout : Duration) : Settled (c.start timeout).2.1 := by
  cases hr : c.running
  case true => rw [Connection.start, if_pos hr]; exact s
  case false =>
    rcases h : Tracked.init c.target c.config.sessionTimeout c.backend with ⟨_ | _, backend⟩
    case error => exact (s.open_error timeout hr h).right.left
    case ok    => exact (s.open_ok timeout hr h).right.left

omit [Backend β] in
theorem isIdle (s : Settled c) : c.isIdle = !c.running := by
  rw [Connection.isIdle, s.closed, Bool.and_self]

-- The handle is still there when the waiting is over, so that it is given up.
theorem shut_eq (s : Settled c) (hr : c.running) (waiting : List (Work ε)) :
    let left := c.quiesce.1.workAll waiting
    c.shut waiting = ((Tracked.close left.backend).1,
      { left with backend := (Tracked.close left.backend).2, closed := true, queue := none }) := by
  have a : Aside { c with running := false } (c.quiesce.1.workAll waiting) :=
    quiesce_aside.trans <| workAll_aside waiting
  have hi : ¬c.isIdle := by simp [s.isIdle, hr]
  have hc : ¬(c.quiesce.1.workAll waiting).closed := by
    rw [a.closed]
    simp [s.closed, hr]
  rw [Connection.shut, if_neg hi]
  simp only [release, if_neg hc]
  rfl

theorem shut (s : Settled c) (waiting : List (Work ε)) :
    Settled (c.shut waiting).2 ∧ (c.shut waiting).2.running = false := by
  cases hr : c.running
  case false =>
    rw [shut_idle (by simp [s.isIdle, hr])]
    exact ⟨s, hr⟩
  case true =>
    have a : Aside { c with running := false } (c.quiesce.1.workAll waiting) :=
      quiesce_aside.trans <| workAll_aside waiting
    rw [s.shut_eq hr]
    refine ⟨⟨⟨?_, a.running.symm, fun h => ?_⟩, ?_, ?_⟩, a.running⟩
    · exact (congrArg (!·) a.running).symm
    · cases a.running.symm.trans h
    · change SessionCall.follow false (_ ++ [SessionCall.ended]) = some _
      rw [a.calls, SessionCall.follow_append, s.calls, hr, a.running]
      rfl
    · exact Int.lt_of_lt_of_le s.numbered a.numbered

theorem perform (s : Settled c) (op : Op ε) : Settled (c.perform op).2 := by
  cases op
  case «open» timeout => exact s.start timeout
  case close waiting  => exact (s.shut waiting).left
  case work w         => exact s.aside <| work_aside w
  case reopen timeout waiting =>
    have h := (s.shut waiting).left
    simp only [Connection.perform]
    split
    case h_1 hs => exact hs ▸ h
    case h_2 hs =>
      rw [hs] at h
      exact h.start timeout

-- Induction on the operations.
theorem live (s : Settled c) (ops : List (Op ε)) : Settled (c.live ops) := by
  induction ops generalizing c
  case nil            => exact s
  case cons op ops ih => exact ih <| s.perform op

end Settled

-- What a call on a proper path is refused with while there is no session.
def refusal (op : Operation) (o : CallOptions ε) : Error :=
  if o.hasWatcher && !op.supportsWatch then
    .badArguments (op.name ++ " does not accept a watcher")
  else .shuttingDown

-- What a closed connection answers; none of it but a start has an effect.
structure Dormant (c : Connection (Tracked β) (Callback ε)) : Prop where
  shut      : ∀ waiting, c.shut waiting = (.ok (), c)
  opens     : ∀ timeout, (c.perform (.open timeout)).1 =
    (Backend.init c.target c.config.sessionTimeout c.backend).1
  state     : c.state = .closed
  session   : c.session = none
  handOut   : c.handOut = (false, c)
  nextEvent : c.nextEvent = (none, c)
  submit    : ∀ op o, op.path.toList.head? = some '/' →
    Client.submit op o c = (.error (refusal op o), c)

theorem accept_closed (hr : c.running = false) (op : Operation) (o : CallOptions ε)
    (hp : op.path.toList.head? = some '/') :
    Client.accept (op.watching o.hasWatcher) o.hasWatcher c = .error (refusal op o) := by
  have hc : Client.checkPath op.path = .ok () := if_pos hp
  have ho : c.assertOpen = .error .shuttingDown := by simp [assertOpen, hr]
  unfold Client.accept refusal
  rw [Operation.watching_path, Operation.watching_name, Operation.watching_supportsWatch, hc, ho]
  cases o.hasWatcher && !op.supportsWatch <;> rfl

theorem Settled.dormant (s : Settled c) (hr : c.running = false) : Dormant c where
  shut waiting := shut_idle (by rw [s.isIdle, hr]; rfl) waiting
  opens timeout := by
    change _ = (Tracked.init c.target c.config.sessionTimeout c.backend).1
    rcases h : Tracked.init c.target c.config.sessionTimeout c.backend with ⟨_ | _, _⟩
    case error => simp only [Connection.perform, s.open_error timeout hr h]; rfl
    case ok    => simp only [Connection.perform, s.open_ok timeout hr h]; rfl
  state := by rw [Connection.state, s.closed, hr]; rfl
  session := by rw [Connection.session, s.closed, hr]; rfl
  handOut := by
    have hq : c.queue = none := by simpa [hr] using s.queue
    rw [Connection.handOut, hq]
  nextEvent := by rw [Connection.nextEvent, hr]; rfl
  submit op o hp := Client.submit_rejected <| accept_closed hr op o hp

-- Whether there is a session after an operation that had this result.
def Op.leavesOpen (running : Bool) (result : Except Error Unit) : Op ε → Bool
  | .open _ => running || result.isOk
  | .close _ => false
  | .reopen .. => result.isOk
  | .work _ => running

theorem Settled.open_running (s : Settled c) (hr : c.running = false) (timeout : Duration) :
    (c.start timeout).2.1.running = (c.start timeout).1.isOk := by
  rcases h : Tracked.init c.target c.config.sessionTimeout c.backend with ⟨_ | _, _⟩
  case error =>
    have ⟨h₁, _, h₂⟩ := s.open_error timeout hr h
    rw [h₁, h₂]
    rfl
  case ok =>
    have ⟨h₁, _, h₂⟩ := s.open_ok timeout hr h
    rw [h₁, h₂]
    rfl

theorem Settled.perform_running (s : Settled c) (op : Op ε) :
    (c.perform op).2.running = op.leavesOpen c.running (c.perform op).1 := by
  cases op
  case «open» timeout =>
    cases hr : c.running
    case true  => simp [Connection.perform, Connection.start, hr, Op.leavesOpen]
    case false =>
      have h := s.open_running hr timeout
      simp only [Connection.perform, Op.leavesOpen, h, Bool.false_or]
      cases (c.start timeout).1 <;> rfl
  case close waiting  => exact (s.shut waiting).right
  case work w         => exact (work_aside w).running
  case reopen timeout waiting =>
    have h := s.shut waiting
    simp only [Connection.perform, Op.leavesOpen]
    split
    case h_1 hs => rw [hs] at h; exact h.right
    case h_2 closed hs =>
      rw [hs] at h
      have h := h.left.open_running h.right timeout
      simp only [h]
      cases (Connection.start timeout closed).1 <;> rfl

-- However its sessions went, a connection is open or closed in all its parts, and every session
-- that was started has been ended once or is the current one.
theorem live_coherent (target : Target) (config : Config) (b : β) (global : Entry (Callback ε))
    (ops : List (Op ε)) :
    let c := (new target config (⟨b, []⟩ : Tracked β) global).live ops
    Coherent c ∧
      (SessionCall.follow false c.backend.calls = some c.running ∧
        c.backend.calls.count .ended + c.running.toNat = c.backend.calls.count .started) ∧
      (∀ op, (c.perform op).2.running = op.leavesOpen c.running (c.perform op).1) ∧
      (c.running → ∀ timeout, c.perform (.open timeout) =
        (.error (.badArguments "connection is already open"), c)) ∧
      (c.running = false → Dormant c) := by
  intro c
  have s : Settled c := (new_settled target config b global).live ops
  refine ⟨s.toCoherent, ⟨s.calls, SessionCall.count_of_follow s.calls⟩, s.perform_running, ?_,
    s.dormant⟩
  intro hr timeout
  simp only [perform, start, hr]
  rfl

end Connection
end Coordination
