import Coordination.Backend.Memory
import Coordination.Replies
import Coordination.Proofs.Client.Registration
import Coordination.Proofs.Connection.Session

namespace Coordination

-- A client whose application waits for replies, and the other handlers that are running, the
-- innermost first.
structure Awaiting where
  connection : Connection Memory (Callback Receiver)
  running : List (Invocation (Callback Receiver))
  replies : Replies

namespace Awaiting

inductive Move
  | submit (op : Operation) (o : CallOptions Handler)
  -- A call whose reply is waited for, under the next number.
  | await (op : Operation) (o : CallOptions Handler)
  -- Whatever the service does of itself.
  | serve (f : Memory → Memory)
  | deliver
  -- An item is taken from the queue.
  | take
  -- An event that was taken from the queue, of this session or an earlier one, is dispatched.
  | dispatch (event : Event)
  -- The innermost handler ends.
  | finish (outcome : Outcome)
  -- The two halves of closing, when a dispatch thread is waited for between them.
  | quiesce
  | release
  | close
  | open (timeout : Duration)
  | reopen (timeout : Duration)

def unopened (target : Target) (config : Config) (m : Memory)
    (global : Entry (Callback Receiver)) : Awaiting where
  connection := .new target config m global
  running := []
  replies := []

abbrev registry (t : Awaiting) : Registry (Callback Receiver) :=
  t.connection.registry

def ask (n : Nat) (t : Awaiting) : Awaited :=
  t.replies.ask n t.registry

def submit (op : Operation) (o : CallOptions Handler) (receiver : Option Receiver) (t : Awaiting) :
    Except Error Reply × Connection Memory (Callback Receiver) :=
  Client.submit op (o.receivedBy receiver) t.connection

-- The callback that settles a reply runs nothing of the application, so nobody can come between its
-- two halves. Every other handler begins to run, and ends when `finish` says so.
def dispatch (event : Event) (t : Awaiting) : Awaiting :=
  match t.connection.enter event with
  | (none, c) => { t with connection := c }
  | (some i, c) =>
    match i.entry.handler.receiver with
    | .reply n =>
      { t with
        connection := c.leave i .ok
        replies := t.replies.settle n (i.entry.handler.view i.event) }
    | _ => { t with connection := c, running := i :: t.running }

def step (t : Awaiting) : Move → Awaiting
  | .submit op o => { t with connection := (t.submit op o (o.callback.map .handler)).2 }
  | .await op o =>
    { t with
      connection := (t.submit op o (some (.reply t.replies.length))).2
      replies := t.replies ++ [none] }
  | .serve f => { t with connection.backend := f t.connection.backend }
  | .deliver =>
    match t.connection.deliverOne with
    | none => t
    | some (c, _) => { t with connection := c }
  | .take => { t with connection.queue := t.connection.queue.map (·.pop.2) }
  | .dispatch event => t.dispatch event
  | .finish outcome =>
    match t.running with
    | [] => t
    | i :: rest => { t with connection := t.connection.leave i outcome, running := rest }
  | .quiesce => { t with connection := t.connection.quiesce.1 }
  | .release => { t with connection := t.connection.release.2.1 }
  | .close => { t with connection := t.connection.stop.2.1 }
  | .open timeout => { t with connection := (t.connection.start timeout).2.1 }
  | .reopen timeout => { t with connection := (t.connection.restart timeout).2.1 }

def run (t : Awaiting) (ms : List Move) : Awaiting :=
  ms.foldl step t

-- What can take a callback out of the registry.
inductive Sign
  | answered (c : CompletionEvent)
  | cleared

def Sign.takes (id : RequestId) : Sign → Bool
  | answered c => c.id = id
  | cleared => true

def Sign.of? : Event → Option Sign
  | .completion c => some (answered c)
  | .watch _ => none

def sign? (t : Awaiting) : Move → Option Sign
  | .dispatch event => Sign.of? event
  | .open _ => if t.connection.running then none else some .cleared
  | .reopen _ => some .cleared
  | _ => none

def signs (t : Awaiting) : List Move → List Sign
  | [] => []
  | m :: ms => (t.sign? m).toList ++ (t.step m).signs ms

end Awaiting

-- The reply that a callback is handed with the completion.
def Callback.reply {ε : Type} (cb : Callback ε) (c : CompletionEvent) : Reply :=
  ⟨c.id, c.rc, (cb.stripping.map c.payload.strip).getD c.payload⟩

theorem Payload.strip_eq_self {target : Target} {p : Payload} (h : target.isChrooted = false) :
    p.strip target = p := by
  have h : target.chroot = Option.none := by simpa [Target.isChrooted] using h
  unfold strip
  split
  case h_1 => simp [Target.stripChroot, h]
  case h_2 => rfl

-- The callback of a call is handed the answer as a synchronous call would give it.
theorem Client.of_completionEntry {ε : Type} {op : Operation} {target : Target} {watch : Bool}
    {o : CallOptions ε} {receiver : ε} {entry : Option (Entry (Callback ε))}
    (h : entry = completionEntry (op.watching watch) target o) (hr : o.callback = some receiver) :
    ∃ e, entry = some e ∧ e.handler.receiver = receiver ∧
      ∀ c, e.handler.reply c = reply op c.id target ⟨c.rc, c.payload⟩ := by
  have ho : (op.watching watch).isCreate = op.isCreate := by cases op <;> rfl
  refine ⟨_, h.trans <| congrArg (Option.map _) hr, rfl, fun c => ?_⟩
  cases hc : op.isCreate <;> cases ht : target.isChrooted <;>
    simp [Callback.reply, reply, ho, hc, ht, Payload.strip_eq_self]

theorem Callback.view_completion {ε : Type} {cb : Callback ε} {c : CompletionEvent} :
    cb.view (.completion c) = .completion { c with payload := (cb.reply c).payload } := by
  cases h : cb.stripping <;> simp [view, reply, h]

theorem Receiver.settles_iff {n : Nat} {receiver : Receiver} :
    receiver.settles n ↔ receiver = .reply n := by
  cases receiver <;> simp [settles]

namespace Registry

variable {r : Registry (Callback Receiver)} {n : Nat} {c : CompletionEvent}
  {e : Entry (Callback Receiver)}

-- The callback of a request settles the reply.
def AwaitsAt (number : Nat) (id : RequestId) (r : Registry (Callback Receiver)) : Prop :=
  ∃ e, r.get? (.completion id) = some e ∧ e.handler.receiver = .reply number

-- The reply that a completion settles with.
def replyTo (number : Nat) (c : CompletionEvent) (r : Registry (Callback Receiver)) :
    Option Reply :=
  match r.get? (.completion c.id) with
  | none => none
  | some e => if e.handler.receiver.settles number then some (e.handler.reply c) else none

theorem awaits_iff : r.awaits n ↔ ∃ id, r.AwaitsAt n id := by
  simp [awaits, AwaitsAt, get?, Std.ExtTreeMap.mem_toList_iff_getElem?_eq_some,
    Receiver.settles_iff]

theorem replyTo_eq (h : r.get? (.completion c.id) = some e) (hr : e.handler.receiver = .reply n) :
    r.replyTo n c = some (e.handler.reply c) := by
  simp only [replyTo, h, Receiver.settles_iff.mpr hr, if_true]

theorem awaitsAt_of_replyTo {reply : Reply} (h : r.replyTo n c = some reply) :
    r.AwaitsAt n c.id := by
  unfold replyTo at h
  split at h
  case h_1 => cases h
  case h_2 e he =>
    split at h
    case isFalse => cases h
    case isTrue hs => exact ⟨e, he, Receiver.settles_iff.mp hs⟩

end Registry

namespace Replies

variable {n k : Nat} {rs : Replies} {reply : Reply}

theorem settle_view {cb : Callback Receiver} {c : CompletionEvent} (h : rs[n]? = some none) :
    (rs.settle k (cb.view (.completion c)))[n]? =
      some (if k = n then some (cb.reply c) else none) := by
  rw [Callback.view_completion]
  by_cases hk : k = n
  case pos =>
    subst hk
    have hl := (List.getElem?_eq_some_iff.mp h).choose
    simp only [settle, h, if_true, List.getElem?_set_self hl]
    rfl
  case neg =>
    simp only [settle, if_neg hk]
    split
    case h_1 => rw [List.getElem?_set_ne hk, h]
    case h_2 => exact h

theorem length_settle {event : Event} : (rs.settle k event).length = rs.length := by
  unfold settle
  split
  case h_1 => exact List.length_set
  case h_2 => rfl

theorem settle_of_settled {event : Event} (h : rs[n]? = some (some reply)) :
    (rs.settle k event)[n]? = some (some reply) := by
  unfold settle
  split
  case h_2 => exact h
  case h_1 hk =>
    rw [List.getElem?_set_ne, h]
    rintro rfl
    simp [h] at hk

end Replies

namespace Awaiting

variable {t t' : Awaiting} {sign : Option Sign} {n : Nat} {id : RequestId} {event : Event}

-- The reply that a sign settles with.
def settled (n : Nat) (t : Awaiting) : Sign → Option Reply
  | .answered c => t.registry.replyTo n c
  | .cleared => none

-- Everything that a step can do to the callbacks and the replies.
inductive Effect (t t' : Awaiting) : Option Sign → Prop
  | still (registry : t'.registry = t.registry) (running : t'.running = t.running)
      (replies : t'.replies = t.replies) : Effect t t' none
  | asked {op : Operation} {o : CallOptions Handler} {receiver : Option Receiver}
      {added : Replies} (connection : t'.connection = (t.submit op o receiver).2)
      (running : t'.running = t.running) (replies : t'.replies = t.replies ++ added)
      (fresh : ∀ n, receiver = some (.reply n) → n = t.replies.length ∧ added = [none]) :
      Effect t t' none
  | dispatched {event : Event} (eq : t' = t.dispatch event) : Effect t t' (Sign.of? event)
  | finished {i : Invocation (Callback Receiver)} {rest : List (Invocation (Callback Receiver))}
      {outcome : Outcome} (before : t.running = i :: rest)
      (connection : t'.connection = t.connection.leave i outcome) (running : t'.running = rest)
      (replies : t'.replies = t.replies) : Effect t t' none
  | cleared {global : Entry (Callback Receiver)}
      (registry : t'.registry = (t.registry.clear global).2) (running : t'.running = t.running)
      (replies : t'.replies = t.replies) :
      Effect t t' (some .cleared)

theorem step_effect (m : Move) : Effect t (t.step m) (t.sign? m) := by
  have still (c : Connection Memory (Callback Receiver))
      (h : c.dispatcher = t.connection.dispatcher) : Effect t { t with connection := c } none :=
    .still (congrArg Dispatcher.registry h) rfl rfl
  cases m
  case submit op o => exact .asked rfl rfl (List.append_nil _).symm (by simp)
  case await op o  => exact .asked rfl rfl rfl (by simp [eq_comm])
  case serve       => exact still _ rfl
  case take        => exact still _ rfl
  case release     => exact still _ rfl
  case quiesce     => exact still _ Connection.quiesce_moves.dispatcher
  case close       => exact still _ Connection.stop_dispatcher
  case dispatch    => exact .dispatched rfl
  case deliver =>
    simp only [step, sign?]
    split
    case h_1   => exact .still rfl rfl rfl
    case h_2 h => exact still _ (Connection.deliverOne_moves h).dispatcher
  case finish =>
    simp only [step, sign?]
    split
    case h_1   => exact .still rfl rfl rfl
    case h_2 h => exact .finished h rfl rfl rfl
  case «open» timeout =>
    cases hr : t.connection.running <;> simp only [step, sign?, hr]
    case true  => exact still _ (by rw [Connection.start_running timeout hr])
    case false => rw [Connection.start_eq timeout hr]; exact .cleared rfl rfl rfl
  case reopen timeout =>
    simp only [step, Connection.restart_eq]
    refine .cleared (congrArg (fun r => (Registry.clear _ r).2) ?_) rfl rfl
    exact congrArg Dispatcher.registry Connection.stop_dispatcher

theorem dispatch_cases (event : Event) :
    ((t.connection.enter event).1 = none ∧
      t.dispatch event = { t with connection := (t.connection.enter event).2 }) ∨
    (∃ i k, (t.connection.enter event).1 = some i ∧ i.entry.handler.receiver = .reply k ∧
      t.dispatch event = { t with
        connection := (t.connection.enter event).2.leave i .ok
        replies := t.replies.settle k (i.entry.handler.view event) }) ∨
    ∃ i, (t.connection.enter event).1 = some i ∧
      (∀ k, i.entry.handler.receiver ≠ .reply k) ∧
      t.dispatch event = { t with
        connection := (t.connection.enter event).2
        running := i :: t.running } := by
  rcases he : t.connection.enter event with ⟨_ | i, c⟩
  case none => exact .inl ⟨rfl, by simp only [dispatch, he]⟩
  case some =>
    have hi : i.event = event := Dispatcher.start_event <| by rw [← Connection.enter_fst, he]
    refine .inr ?_
    cases hr : i.entry.handler.receiver
    case reply k => exact .inl ⟨i, k, rfl, hr, by simp only [dispatch, he, hr, hi]⟩
    all_goals exact .inr ⟨i, rfl, by simp [hr], by simp only [dispatch, he, hr]⟩

theorem get?_dispatch :
    (t.dispatch event).registry.get? (.completion id) =
      if event.answers id then none else t.registry.get? (.completion id) := by
  rw [← Connection.get?_enter_completion]
  rcases t.dispatch_cases event with ⟨_, h⟩ | ⟨i, _, hi, _, h⟩ | ⟨_, _, _, h⟩ <;> rw [h]
  exact Connection.get?_leave_enter hi .ok

theorem dispatch_nextId : (t.dispatch event).registry.nextId = t.registry.nextId := by
  rw [← t.connection.enter_nextId (e := event)]
  rcases t.dispatch_cases event with ⟨_, h⟩ | ⟨_, _, _, _, h⟩ | ⟨_, _, _, h⟩ <;> rw [h]
  exact Dispatcher.finish_nextId ..

-- The callback of the request is called, and of all receivers only a reply does something at once.
theorem getElem?_dispatch (h : t.replies[n]? = some none) :
    (t.dispatch event).replies[n]? = some ((Sign.of? event).bind (t.settled n)) := by
  cases event
  case watch =>
    rcases t.dispatch_cases _ with ⟨_, hd⟩ | ⟨_, _, _, _, hd⟩ | ⟨_, _, _, hd⟩ <;>
      exact hd ▸ h
  case completion c =>
    rcases t.dispatch_cases (.completion c) with ⟨hi, hd⟩ | ⟨_, k, hi, hr, hd⟩ | ⟨_, hi, hr, hd⟩ <;>
      rw [hd, Sign.of?, Option.bind_some, settled, Registry.replyTo] <;>
      rw [Connection.enter_completion] at hi
    case inl => simp only [h, Option.map_eq_none_iff.mp hi]
    case inr.inl =>
      obtain ⟨e, hg, rfl⟩ := Option.map_eq_some_iff.mp hi
      have hr : e.handler.receiver = .reply k := hr
      simp [hg, hr, Receiver.settles, Replies.settle_view h]
    case inr.inr =>
      obtain ⟨e, hg, rfl⟩ := Option.map_eq_some_iff.mp hi
      simp [hg, h, mt Receiver.settles_iff.mp (hr n)]

theorem getElem?_dispatch_settled {reply : Reply} (h : t.replies[n]? = some (some reply)) :
    (t.dispatch event).replies[n]? = some (some reply) := by
  rcases t.dispatch_cases event with ⟨_, hd⟩ | ⟨_, _, _, _, hd⟩ | ⟨_, _, _, hd⟩ <;> rw [hd]
  case inr.inl => exact Replies.settle_of_settled h
  all_goals exact h

theorem length_dispatch : (t.dispatch event).replies.length = t.replies.length := by
  rcases t.dispatch_cases event with ⟨_, h⟩ | ⟨_, _, _, _, h⟩ | ⟨_, _, _, h⟩ <;> rw [h]
  exact Replies.length_settle

theorem running_dispatch {i : Invocation (Callback Receiver)}
    (h : i ∈ (t.dispatch event).running) :
    i ∈ t.running ∨ ∀ n, i.entry.handler.receiver ≠ .reply n := by
  rcases t.dispatch_cases event with ⟨_, hd⟩ | ⟨_, _, _, _, hd⟩ | ⟨_, _, hr, hd⟩ <;> rw [hd] at h
  case inr.inr =>
    cases h
    case head   => exact .inr hr
    case tail h => exact .inl h
  all_goals exact .inl h

end Awaiting
end Coordination
