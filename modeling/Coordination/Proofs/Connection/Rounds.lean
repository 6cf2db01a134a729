import Coordination.Proofs.Client.Registration
import Coordination.Proofs.Connection.Draining
import Coordination.World.Run

namespace Coordination

variable {w w' w'' : World} {q q' : Queue} {log : Log} {number : Nat} {fs : List Activation}
  {i : Invocation (Callback Receiver)} {t : Thread}

-- What a handler can do without moving events or threads about.
def Instruction.isModest : Instruction → Bool
  | .block | .unblock | .dispatchEvent _ | .openSession _ | .reopen _ | .close _ => false
  | .next | .dispatchOne | .dispatchUpTo _ | .readiness | .consume .. | .ready _ => false
  | _ => true

-- How it ends the handler, if it does.
def Instruction.end? : Instruction → Option Outcome
  | .fail e => some (.failed e)
  | .panic text => some (.panicked text)
  | _ => none

namespace Invocation

def script (i : Invocation (Callback Receiver)) : List Instruction :=
  match i.entry.handler.receiver with
  | .handler h => h.script
  | _ => []

def label (i : Invocation (Callback Receiver)) : String :=
  i.entry.handler.receiver.label

end Invocation

def Attended.isModest (a : Attended (Callback Receiver)) : Bool :=
  match a.call with
  | none => true
  | some (i, _) => i.script.all Instruction.isModest

namespace World

def Reaches (w w' : World) : Prop :=
  ∃ n, w.run n = w'

theorem run_of_stuck (h : w.step = none) (n : Nat) : w.run n = w := by
  cases n
  case zero => rfl
  case succ => rw [run, h]

theorem run_add (m n : Nat) : w.run (m + n) = (w.run m).run n := by
  induction m generalizing w
  case zero => rw [Nat.zero_add]; rfl
  case succ m ih =>
    rw [Nat.succ_add, run, run]
    cases h : w.step
    case none => exact (run_of_stuck h n).symm
    case some => exact ih

namespace Reaches

theorem refl : Reaches w w :=
  ⟨0, rfl⟩

theorem trans : Reaches w w' → Reaches w' w'' → Reaches w w''
  | ⟨m, hm⟩, ⟨n, hn⟩ => ⟨m + n, by rw [run_add, hm, hn]⟩

theorem step (h : w.step = some w') : Reaches w w' :=
  ⟨1, by rw [run, h]; rfl⟩

end Reaches

-- The turn is the dispatch thread's: the stream has ended, and the application has nothing to do,
-- or waits for the thread in order to close.
structure Yields (w : World) : Prop where
  delivered : w.connection.delivering = false
  idle      : w.closing = none ∧ w.application = [] ∨
    ∃ unblocking, w.closing = some ⟨.application, unblocking⟩

theorem deliver_eq (h : w.connection.delivering = false) : w.deliver = w := by
  have hs : w.connection.deliverOne = none := by rw [Connection.deliverOne, h]; rfl
  have hd : w.connection.deliver = (w.connection, []) := by
    rw [Connection.deliver, Connection.deliverUpTo, hs]
  rw [deliver, hd]
  simp [record]

theorem step_eq (y : w.Yields) (ht : w.threads = [t]) (hl : t.leftover = none)
    (hc : w.canStep t) (hd : (w.stepThread t).connection.delivering = false) :
    w.step = some (w.stepThread t) := by
  obtain ⟨hn, ha⟩ | ⟨unblocking, hn⟩ := y.idle
  case inl => simp [step, hn, ha, ht, hc, deliver_eq hd]
  case inr => simp [step, stepClosing, hn, current, ht, hl, hc, deliver_eq hd]

-- The world with this queue and this log, and with these dispatch threads.
def seat (q : Queue) (log : Log) (ts : List Thread) (w : World) : World :=
  { w with connection.queue := some q, log := log, threads := ts }

-- What else has a say in whose turn it is, and in what a thread does next.
structure Beside (w w' : World) : Prop where
  application : w'.application = w.application
  closing     : w'.closing = w.closing
  running     : w'.connection.running = w.connection.running
  delivering  : w'.connection.delivering = w.connection.delivering

theorem Beside.refl : Beside w w :=
  ⟨rfl, rfl, rfl, rfl⟩

theorem Beside.trans (b : Beside w w') (b' : Beside w' w'') : Beside w w'' where
  application := b'.application.trans b.application
  closing     := b'.closing.trans b.closing
  running     := b'.running.trans b.running
  delivering  := b'.delivering.trans b.delivering

theorem Beside.yields (b : Beside w w') (y : w.Yields) : w'.Yields where
  delivered := b.delivering.trans y.delivered
  idle      := by rw [b.application, b.closing]; exact y.idle

theorem connection_seat {ts : List Thread} :
    (w.seat q log ts).connection = { w.connection with queue := some q } :=
  rfl

-- The client does not look at the queue.
theorem submit_queue {c : Connection (Faulty Memory) (Callback Receiver)} (op : Operation)
    (o : CallOptions Receiver) (q : Option Queue) :
    Client.submit op o { c with queue := q } =
      ((Client.submit op o c).1, { (Client.submit op o c).2 with queue := q }) := by
  let c' := { c with queue := q }
  cases h : Client.accept (op.watching o.hasWatcher) o.hasWatcher c
  case error =>
    have h' : Client.accept (op.watching o.hasWatcher) o.hasWatcher c' = .error _ := h
    rw [Client.submit_rejected h, Client.submit_rejected h']
  case ok =>
    have h' : Client.accept (op.watching o.hasWatcher) o.hasWatcher c' = .ok () := h
    rw [Client.submit_accepted h, Client.submit_accepted h']
    rfl

theorem submit_running {c : Connection (Faulty Memory) (Callback Receiver)} (op : Operation)
    (o : CallOptions Receiver) :
    (Client.submit op o c).2.running = c.running ∧
      (Client.submit op o c).2.delivering = c.delivering := by
  cases h : Client.accept (op.watching o.hasWatcher) o.hasWatcher c
  case error => rw [Client.submit_rejected h]; exact ⟨rfl, rfl⟩
  case ok    => rw [Client.submit_accepted h]; exact ⟨rfl, rfl⟩

theorem receiverFor_seat {ts : List Thread} (callback : Option Handler) (slot : Option String) :
    (w.seat q log ts).receiverFor callback slot =
      ((w.receiverFor callback slot).1, (w.receiverFor callback slot).2.seat q log ts) := by
  cases slot <;> rfl

theorem askFor_seat {ts : List Thread} (slot : String) :
    (w.seat q log ts).askFor slot = ((w.askFor slot).1, (w.askFor slot).2.seat q log ts) := by
  have hs : (w.seat q log ts).slots = w.slots := rfl
  have ha (n : Nat) : (w.seat q log ts).replies.ask n (w.seat q log ts).registry =
    w.replies.ask n w.registry := rfl
  unfold askFor
  simp only [hs, ha]
  split
  case h_1 => rfl
  case h_2 => split <;> rfl

theorem answerTo_seat {ts : List Thread} {instruction : Instruction} (h : instruction.isModest) :
    (w.seat q log ts).answerTo (.thread number) instruction =
      ((w.answerTo (.thread number) instruction).1,
        (w.answerTo (.thread number) instruction).2.seat q log ts) := by
  cases instruction
  case submit op options slot checked =>
    simp only [answerTo, World.submit, receiverFor_seat, connection_seat, submit_queue]
    rfl
  case setFault point message => cases point <;> rfl
  case cutStream =>
    cases hd : w.connection.delivering
    all_goals
      simp only [answerTo, connection_seat, hd]
      rfl
  case awaitReply slot => simp only [answerTo, askFor_seat]
  all_goals first | rfl | cases h

theorem answerTo_beside {instruction : Instruction} (h : instruction.isModest) :
    Beside w (w.answerTo (.thread number) instruction).2 := by
  cases instruction
  case submit op options slot checked =>
    let w' := (w.receiverFor options.callback slot).2
    have hw : Beside w w' := by cases slot <;> exact ⟨rfl, rfl, rfl, rfl⟩
    have ⟨hr, hd⟩ := submit_running (c := w'.connection) op
      (options.receivedBy (w.receiverFor options.callback slot).1)
    exact hw.trans ⟨rfl, rfl, hr, hd⟩
  case setFault point message => cases point <;> exact ⟨rfl, rfl, rfl, rfl⟩
  case cutStream => simp only [answerTo]; split <;> exact ⟨rfl, rfl, rfl, rfl⟩
  case awaitReply slot =>
    simp only [answerTo, askFor]
    split <;> try split
    all_goals exact ⟨rfl, rfl, rfl, rfl⟩
  all_goals first | exact ⟨rfl, rfl, rfl, rfl⟩ | cases h

abbrev worker (number : Nat) (fs : List Activation) : Thread :=
  ⟨number, fs, none, false⟩

-- What comes before the first instruction of a handler.
def greet (i : Invocation (Callback Receiver)) (w : World) : World :=
  let view := i.entry.handler.view i.event
  match i.entry.handler.receiver with
  | .handler h => w.note (.called h.label i.entry.context view)
  | .reply number => { w with replies := w.replies.settle number view }
  | .silent => w

-- A script from here on, and how it ends.
def play (p : Party) (label : String) : List Instruction → World → Outcome × World
  | [], w => (.ok, w)
  | instruction :: script, w =>
    match instruction.end? with
    | some outcome => (outcome, w)
    | none =>
      let (a, w) := w.answerTo p instruction
      play p label script (w.note (.answered label a))

-- What the handlers of a world do when a dispatch thread calls them.
def carryOut (number : Nat) : Handling (Callback Receiver) World := fun i w d =>
  let w := { w with connection.dispatcher := d }.withRegistry (i.entry.handler.enter i.event)
  let (outcome, w) := (w.greet i).play (.thread number) i.label i.script
  (outcome, w, w.connection.dispatcher)

theorem greet_beside : Beside w (w.greet i) := by
  unfold greet
  split <;> exact ⟨rfl, rfl, rfl, rfl⟩

theorem frames_seat : (w.seat q log [worker number fs]).frames (.thread number) = fs := by
  simp [frames, thread?, seat]

theorem setFrames_seat (fs' : List Activation) :
    (w.seat q log [worker number fs]).setFrames (.thread number) fs' =
      w.seat q log [worker number fs'] := by
  simp [setFrames, modifyThread, seat]

theorem enter_seat (i : Invocation (Callback Receiver)) (fs : List Activation) :
    (w.seat q log [worker number fs]).enter (.thread number) i =
      (w.greet i).seat q log [worker number (⟨some i, i.label, i.script, none⟩ :: fs)] := by
  let w' := (w.greet i).seat q log [worker number fs]
  have he : (w.seat q log [worker number fs]).enter (.thread number) i =
      w'.setFrames (.thread number) (⟨some i, i.label, i.script, none⟩ ::
        w'.frames (.thread number)) := by
    obtain ⟨_, _, ⟨⟨receiver, _, _⟩, _⟩⟩ := i
    cases receiver <;> rfl
  rw [he, frames_seat, setFrames_seat]

-- When a handler has ended, and when there was none, a thread stops as the loop of a worker does.
theorem afterEvent_seat : (w.seat q log [worker number []]).afterEvent number =
    w.seat q log (if Worker.goesOn w.connection.running q then [worker number []] else []) := by
  have ht : (w.seat q log [worker number []]).thread? number = some (worker number []) := by
    simp [thread?, seat]
  have hg : (w.seat q log [worker number []]).goesOn (worker number []) =
      Worker.goesOn w.connection.running q := by
    simp [goesOn, waiting, seat, Worker.goesOn, Queue.isEmpty_toList]
  simp only [afterEvent, ht, hg]
  cases Worker.goesOn w.connection.running q <;> simp [seat, removeThread]

theorem leave_seat (outcome : Outcome) (label : String) (script : List Instruction) :
    (w.seat q log [worker number [⟨some i, label, script, none⟩]]).leave (.thread number) outcome =
      ({ w with connection := w.connection.leave i outcome }).seat q
        (log ++ (i.record? outcome).toList.map (Source.dispatch, ·))
        (if Worker.goesOn w.connection.running q then [worker number []] else []) := by
  rw [leave, frames_seat]
  simp only [setFrames_seat]
  exact afterEvent_seat (w := { w with connection := w.connection.leave i outcome })

theorem reaches_step (y : w.Yields)
    (hc : (w.seat q log [worker number fs]).canStep (worker number fs))
    (h : (w.seat q log [worker number fs]).stepThread (worker number fs) = w')
    (hd : w'.connection.delivering = false) : Reaches (w.seat q log [worker number fs]) w' :=
  .step <| (step_eq (w := w.seat q log [worker number fs]) ⟨y.delivered, y.idle⟩ rfl rfl hc
    (h ▸ hd)).trans (congrArg some h)

theorem perform_of_end {instruction : Instruction} {outcome : Outcome} {p : Party}
    (h : instruction.end? = some outcome) : w.perform p instruction = w.leave p outcome := by
  cases instruction <;> cases h <;> rfl

theorem perform_modest {instruction : Instruction} {p : Party} (h : instruction.end? = none)
    (hm : instruction.isModest) :
    w.perform p instruction =
      (w.answerTo p instruction).2.reply p (w.answerTo p instruction).1 := by
  cases instruction
  case fail | panic => cases h
  all_goals first | rfl | cases hm

theorem isLifecycle_modest {instruction : Instruction} (h : instruction.isModest) :
    isLifecycle instruction = false := by
  cases instruction <;> first | rfl | cases h

theorem reply_seat {f : Activation} (a : Answer) (hi : f.invocation = some i)
    (hp : f.pending = none) :
    (w.seat q log [worker number [f]]).reply (.thread number) a =
      (w.note (.answered f.label a)).seat q log [worker number [f]] := by
  obtain ⟨_, label, script, _⟩ := f
  cases hi
  cases hp
  rw [reply, frames_seat]
  simp only [setFrames_seat]
  rfl

theorem pop_seat : (w.seat q log [worker number []]).pop (worker number []) =
    (q.pop.1, w.seat q.pop.2 log [worker number []]) :=
  rfl

theorem canStep_seat {item : Item} (h : q.pop = (some item, q')) :
    (w.seat q log [worker number []]).canStep (worker number []) := by
  have hl : q.toList ≠ [] := fun hl => by
    have hn := q.pop_eq_none_iff.mpr hl
    rw [h] at hn
    cases hn
  simp [canStep, waiting, seat, hl]

theorem afterEvent_busy {f : Activation} :
    (w.seat q log [worker number (f :: fs)]).afterEvent number =
      w.seat q log [worker number (f :: fs)] := by
  simp [afterEvent, thread?, seat]

theorem dispatch_orphan {e : Event} {d : Dispatcher (Callback Receiver)} {ts : List Thread}
    (p : Party) (h : w.connection.dispatcher.start e = (none, d)) :
    (w.seat q log ts).dispatch p e =
      (false, { w with connection.dispatcher := d }.seat q
        (log ++ [(p.source, e.orphanRecord)]) ts) := by
  have he : (w.seat q log ts).connection.enter e =
      (none, { (w.seat q log ts).connection with dispatcher := d }) := by
    rw [Connection.enter, connection_seat, h]
  rw [dispatch, he]
  rfl

theorem dispatch_found {e : Event} {d : Dispatcher (Callback Receiver)}
    (h : w.connection.dispatcher.start e = (some i, d)) :
    let w' := { w with connection.dispatcher := d }.withRegistry (i.entry.handler.enter i.event)
    (w.seat q log [worker number fs]).dispatch (.thread number) e =
      (true,
        (w'.greet i).seat q log [worker number (⟨some i, i.label, i.script, none⟩ :: fs)]) := by
  intro w'
  have he : (w.seat q log [worker number fs]).connection.enter e =
      (some i, (w'.seat q log [worker number fs]).connection) := by
    rw [Connection.enter, connection_seat, h]
    rfl
  rw [dispatch, he]
  exact congrArg _ (enter_seat (w := w') i fs)

-- Induction on the script.
theorem reaches_play {script : List Instruction} (q : Queue) (log : Log) (number : Nat)
    (i : Invocation (Callback Receiver)) (y : w.Yields) (hm : script.all Instruction.isModest) :
    let (outcome, w') := w.play (.thread number) i.label script
    Beside w w' ∧ ∃ log', Reaches (w.seat q log [worker number [⟨some i, i.label, script, none⟩]])
      ({ w' with connection := w'.connection.leave i outcome }.seat q log'
        (if Worker.goesOn w.connection.running q then [worker number []] else [])) := by
  induction script generalizing w
  case nil => exact ⟨.refl, _, reaches_step y rfl (leave_seat ..) y.delivered⟩
  case cons instruction script ih =>
    obtain ⟨hi, hs⟩ : instruction.isModest ∧ script.all Instruction.isModest := by simpa using hm
    let f : Activation := ⟨some i, i.label, instruction :: script, none⟩
    have hc : (w.seat q log [worker number [f]]).canStep (worker number [f]) := by
      simp [canStep, isReady, isLifecycle_modest hi, f]
    cases he : instruction.end?
    case some outcome =>
      have hp : w.play (.thread number) i.label (instruction :: script) = (outcome, w) := by
        rw [play, he]
      have hl : (w.seat q log [worker number [f]]).stepThread (worker number [f]) =
          (w.seat q log [worker number [⟨some i, i.label, script, none⟩]]).leave
            (.thread number) outcome := by
        simp only [stepThread, stepFrame, setFrames_seat, perform_of_end he, f]
      rw [hp]
      exact ⟨.refl, _, reaches_step y hc (hl.trans <| leave_seat ..) y.delivered⟩
    case none =>
      let a := (w.answerTo (.thread number) instruction).1
      let w₁ := (w.answerTo (.thread number) instruction).2.note (.answered i.label a)
      have hp : w.play (.thread number) i.label (instruction :: script) =
          w₁.play (.thread number) i.label script := by
        rw [play, he]
      have hb : Beside w w₁ := (answerTo_beside hi).trans ⟨rfl, rfl, rfl, rfl⟩
      have ⟨hb', log', hr⟩ := ih (hb.yields y) hs
      rw [hb.running] at hr
      rw [hp]
      refine ⟨hb.trans hb', log', .trans (reaches_step y hc ?_ ?_) hr⟩
      case refine_1 =>
        simp only [stepThread, stepFrame, setFrames_seat, perform_modest he hi, answerTo_seat hi]
        exact reply_seat a rfl rfl
      case refine_2 => exact (hb.yields y).delivered

theorem reaches_marker (y : w.Yields) (hp : q.pop = (some .shutdown, q')) :
    Reaches (w.seat q log [worker number []]) (w.seat q' log []) := by
  refine reaches_step y (canStep_seat hp) ?_ y.delivered
  simp only [stepThread, stepLoop, pop_seat, hp]
  simp [removeThread, seat]

theorem reaches_orphan {e : Event} {d : Dispatcher (Callback Receiver)} (y : w.Yields)
    (hp : q.pop = (some (.event e), q')) (hd : w.connection.dispatcher.start e = (none, d)) :
    Reaches (w.seat q log [worker number []])
      ({ w with connection.dispatcher := d }.seat q' (log ++ [(Source.dispatch, e.orphanRecord)])
        (if Worker.goesOn w.connection.running q' then [worker number []] else [])) := by
  refine reaches_step y (canStep_seat hp) ?_ y.delivered
  simp only [stepThread, stepLoop, pop_seat, hp]
  rw [dispatch_orphan (.thread number) hd]
  exact afterEvent_seat

theorem reaches_handler {e : Event} {d : Dispatcher (Callback Receiver)} (log : Log) (number : Nat)
    (y : w.Yields) (hp : q.pop = (some (.event e), q'))
    (hd : w.connection.dispatcher.start e = (some i, d))
    (hm : i.script.all Instruction.isModest) :
    let (outcome, w', d') := carryOut number i w d
    Beside w w' ∧ ∃ log', Reaches (w.seat q log [worker number []])
      ({ w' with connection.dispatcher := d'.finish i outcome }.seat q' log'
        (if Worker.goesOn w.connection.running q' then [worker number []] else [])) := by
  let w₁ := { w with connection.dispatcher := d }.withRegistry (i.entry.handler.enter i.event)
  have h₁ : Beside w w₁ := ⟨rfl, rfl, rfl, rfl⟩
  have hb : Beside w (w₁.greet i) := h₁.trans greet_beside
  have hs : (w.seat q log [worker number []]).stepThread (worker number []) =
      (w₁.greet i).seat q' log [worker number [⟨some i, i.label, i.script, none⟩]] := by
    simp only [stepThread, stepLoop, pop_seat, hp]
    rw [dispatch_found hd]
    exact afterEvent_busy
  have hr := reaches_play q' log number i (hb.yields y) hm
  rw [hb.running] at hr
  refine ⟨hb.trans hr.left, hr.right.imp fun log' => .trans ?_⟩
  exact reaches_step y (canStep_seat hp) hs (hb.yields y).delivered

end World

namespace Worker

open World

variable {k k' : Worker (Callback Receiver) World} {goes : Bool}

-- The world that the worker's desk stands in, with its dispatcher.
def room (k : Worker (Callback Receiver) World) : World :=
  { k.desk.shared with connection.dispatcher := k.desk.dispatcher }

theorem reaches_once (log : Log)
    (h : k.once (carryOut number) k.desk.shared.connection.running = some (goes, k'))
    (y : k.desk.shared.Yields) (hm : ∀ a ∈ k'.desk.attended, a.isModest) :
    Beside k.desk.shared k'.desk.shared ∧ ∃ log',
      Reaches (k.room.seat k.queue log [World.worker number []])
        (k'.room.seat k'.queue log' (if goes then [World.worker number []] else [])) := by
  have hy : k.room.Yields := ⟨y.delivered, y.idle⟩
  unfold once at h
  split at h
  case h_1 => cases h
  case h_2 q hp =>
    cases h
    exact ⟨.refl, log, reaches_marker hy hp⟩
  case h_3 e q hp =>
    cases h
    cases hd : k.desk.dispatcher.start e with | mk found d =>
    cases found
    case none =>
      have ha : k.desk.attend (carryOut number) e =
        ⟨d, k.desk.shared, k.desk.attended ++ [⟨e, none, false⟩]⟩ := by rw [Desk.attend, hd]
      rw [ha]
      exact ⟨.refl, _, reaches_orphan hy hp hd⟩
    case some i =>
      have ha : k.desk.attend (carryOut number) e =
          let (outcome, w, d) := carryOut number i k.room d
          ⟨d.finish i outcome, w, k.desk.attended ++ [⟨e, some (i, outcome), true⟩]⟩ := by
        rw [Desk.attend, hd]
        rfl
      rw [ha] at hm ⊢
      have hr := reaches_handler log number hy hp hd <|
        hm _ <| List.mem_append_right _ <| List.mem_singleton_self _
      have hb : Beside k.desk.shared k.room := ⟨rfl, rfl, rfl, rfl⟩
      exact ⟨hb.trans hr.left, hr.right⟩

theorem attended_once {handle : Handling (Callback Receiver) World} {running : Bool}
    (h : k.once handle running = some (goes, k')) {a : Attended (Callback Receiver)}
    (ha : a ∈ k.desk.attended) : a ∈ k'.desk.attended := by
  unfold once at h
  split at h
  case h_1 => cases h
  case h_2 => cases h; exact ha
  case h_3 =>
    cases h
    unfold Desk.attend
    split <;> exact List.mem_append_left _ ha

theorem attended_loop {handle : Handling (Callback Receiver) World} {flag : Nat → Bool} {n : Nat}
    (h : k.loop handle flag n = some k') {a : Attended (Callback Receiver)}
    (ha : a ∈ k.desk.attended) : a ∈ k'.desk.attended := by
  fun_induction loop handle flag n k
  case case1 => cases h
  case case2 ho ih => exact ih h (attended_once ho ha)
  case case3 ho => cases h; exact attended_once ho ha

-- Induction on the rounds.
theorem reaches_loop {flag : Nat → Bool} {n : Nat} (log : Log)
    (h : k.loop (carryOut number) flag n = some k')
    (hf : ∀ n, flag n = k.desk.shared.connection.running) (y : k.desk.shared.Yields)
    (hm : ∀ a ∈ k'.desk.attended, a.isModest) :
    ∃ log', Reaches (k.room.seat k.queue log [World.worker number []])
      (k'.room.seat k'.queue log' []) := by
  fun_induction loop (carryOut number) flag n k generalizing log
  case case1 => cases h
  case case2 n k k₁ ho ih =>
    rw [hf] at ho
    have ⟨hb, log₁, hr⟩ := reaches_once log ho y fun a ha => hm a (attended_loop h ha)
    have ⟨log', hr'⟩ := ih log₁ h (fun n => (hf n).trans hb.running.symm) (hb.yields y)
    exact ⟨log', hr.trans hr'⟩
  case case3 n k k₁ ho =>
    cases h
    rw [hf] at ho
    exact (reaches_once log ho y hm).right

theorem reaches_run (log : Log)
    (h : k.run (carryOut number) (fun _ => k.desk.shared.connection.running) = some k')
    (y : k.desk.shared.Yields) (hm : ∀ a ∈ k'.desk.attended, a.isModest) :
    ∃ log', Reaches (k.room.seat k.queue log [World.worker number []])
      (k'.room.seat k'.queue log' []) := by
  unfold run at h
  split at h
  case isTrue  => exact reaches_loop (k := { k with status := .draining }) log h (fun _ => rfl) y hm
  case isFalse => exact reaches_loop log h (fun _ => rfl) y hm

end Worker

namespace World

-- Left to itself, a dispatch thread stops when it has attended to all of these events, and has done
-- what a worker does; nothing is left in the queue.
theorem reaches_drained {es : List Event} (ht : w.threads = [worker number []])
    (hq : w.connection.queue = some q) (y : w.Yields)
    (he : Worker.EndsAfter (fun _ => w.connection.running) 0 es q.toList) :
    let desk := Desk.attendAll (carryOut number) es ⟨w.connection.dispatcher, w, []⟩
    (∀ a ∈ desk.attended, a.isModest) →
      ∃ q' log, q'.isEmpty ∧ Reaches w
        ({ desk.shared with connection.dispatcher := desk.dispatcher }.seat q' log []) := by
  intro desk hm
  let k : Worker (Callback Receiver) World := ⟨q, .idle, ⟨w.connection.dispatcher, w, []⟩⟩
  have hw : k.room.seat q w.log [worker number []] = w := by
    obtain ⟨⟨⟩⟩ := w
    cases ht
    cases hq
    rfl
  have ⟨q', hn, hr⟩ : ∃ q', q'.isEmpty ∧
      k.run (carryOut number) (fun _ => w.connection.running) = some ⟨q', .stopped, desk⟩ :=
    Worker.run_of_endsAfter he
  have ⟨log, reaches⟩ := Worker.reaches_run (k := k) w.log hr y hm
  rw [hw] at reaches
  exact ⟨q', log, hn, reaches⟩

theorem enqueue_delivering {c : Connection (Faulty Memory) (Callback Receiver)} (item : Item) :
    (c.enqueue item).1.delivering = c.delivering := by
  unfold Connection.enqueue
  split <;> rfl

-- An application that closes the connection waits for its dispatch thread.
theorem beginClose_yields (hi : w.connection.isIdle = false) (reopen : Option Duration)
    (unblocking : Bool) :
    let w' := w.beginClose .application reopen unblocking
    w'.Yields ∧ w'.connection = w.connection.quiesce.1 ∧ w'.threads = w.threads := by
  have hd : w.connection.quiesce.1.delivering = false := enqueue_delivering ..
  simp only [beginClose, hi, Bool.false_eq_true, if_false, setPending, frames, record]
  split
  case h_1 => exact ⟨⟨hd, .inr ⟨unblocking, rfl⟩⟩, rfl, rfl⟩
  case h_2 => exact ⟨⟨hd, .inr ⟨unblocking, rfl⟩⟩, rfl, rfl⟩

-- So that the events which closing finds on the stream and in the queue are all attended to, before
-- the session is over.
theorem beginClose_drained {es : List Event} (hi : w.connection.isIdle = false)
    (ht : w.threads = [worker number []]) (hq : w.connection.quiesce.1.queue = some q)
    (he : q.toList = es.map .event ++ [.shutdown]) (reopen : Option Duration) (unblocking : Bool) :
    let w' := w.beginClose .application reopen unblocking
    let desk := Desk.attendAll (carryOut number) es ⟨w'.connection.dispatcher, w', []⟩
    (∀ a ∈ desk.attended, a.isModest) →
      ∃ q' log, q'.isEmpty ∧ Reaches w'
        ({ desk.shared with connection.dispatcher := desk.dispatcher }.seat q' log []) := by
  have ⟨y, hc, hs⟩ := beginClose_yields hi reopen unblocking
  exact reaches_drained (hs.trans ht) ((congrArg Connection.queue hc).trans hq) y (.inl he)

end World
end Coordination
