import Coordination.Proofs.Client.Awaited

namespace Coordination.Awaiting

variable {t t' : Awaiting} {sign : Option Sign} {n : Nat} {id : RequestId}
  {reply : CompletionEvent → Reply}

-- What becomes of a reply that is waited for, given how the answer to its request reads.
def fate (id : RequestId) (reply : CompletionEvent → Reply) : List Sign → Awaited
  | [] => .pending
  | .answered c :: rest => if c.id = id then .settled (.ok (reply c)) else fate id reply rest
  | .cleared :: _ => .settled (.error .shuttingDown)

-- Nobody settles a reply that has not been given out yet, and replies are settled at once.
structure Tidy (t : Awaiting) : Prop where
  running  : ∀ i ∈ t.running, ∀ n, i.entry.handler.receiver ≠ .reply n
  numbered : ∀ n id, t.registry.AwaitsAt n id → n < t.replies.length

theorem tidy_unopened (target : Target) (config : Config) (m : Memory)
    (global : Entry (Callback Receiver)) : (unopened target config m global).Tidy where
  running    := by simp [unopened]
  numbered _ _ := fun ⟨_, h, _⟩ => nomatch Registry.get?_empty.symm.trans h

namespace Effect

variable (h : Effect t t' sign)
include h

theorem nextId : t.registry.nextId.number ≤ t'.registry.nextId.number := by
  cases h
  case still h _ _           => exact Int.le_of_eq (by rw [h])
  case asked h _ _ _         => rw [registry, registry, h]; exact Client.submit_nextId
  case dispatched h          => exact Int.le_of_eq (by rw [h, dispatch_nextId])
  case finished h _ _        =>
    rw [registry, registry, h]
    exact Int.le_of_eq (congrArg RequestId.number (Dispatcher.finish_nextId ..).symm)
  case cleared h _ _         => exact Int.le_of_eq (by rw [h, Registry.clear_nextId])

-- A callback that settles a reply was registered before the step, or is the one of a call.
theorem of_awaitsAt (ht : t.Tidy) (ha : t'.registry.AwaitsAt n id) :
    t.registry.AwaitsAt n id ∨ n = t.replies.length ∧ n < t'.replies.length := by
  have ⟨e, he, hr⟩ := ha
  cases h
  case still h _ _ => exact .inl ⟨e, h ▸ he, hr⟩
  case asked hc _ hs hf =>
    rw [registry, hc] at he
    refine (Client.get?_of_submit he).imp (⟨e, ·, hr⟩) fun hn => ?_
    have ⟨hn, ha⟩ := hf n (hr ▸ hn)
    exact ⟨hn, by simp [hs, hn, ha]⟩
  case dispatched h =>
    rw [h, get?_dispatch] at he
    split at he
    case isTrue  => cases he
    case isFalse => exact .inl ⟨e, he, hr⟩
  case finished i _ _ hb hc _ _ =>
    rw [registry, hc] at he
    have he := (Dispatcher.get?_finish i _).symm.trans he
    split at he
    case isFalse => exact .inl ⟨e, he, hr⟩
    case isTrue =>
      rcases Option.or_eq_some_iff.mp he with he | ⟨_, he⟩
      case inl => exact .inl ⟨e, he, hr⟩
      case inr => cases he; exact absurd hr <| ht.running i (by simp [hb]) n
  case cleared h _ _ =>
    rw [h, Registry.get?_clear, if_neg nofun] at he
    cases he

-- Only a sign that takes the callback out makes a difference to it.
theorem get? {e : Entry (Callback Receiver)} (hl : id.number < t.registry.nextId.number)
    (he : t.registry.get? (.completion id) = some e) :
    t'.registry.get? (.completion id) = if sign.any (·.takes id) then none else some e := by
  cases h
  case still h _ _ => rw [h]; exact he
  case asked hc _ _ _ =>
    have hne : id ≠ t.registry.nextId := by rintro rfl; exact Int.lt_irrefl _ hl
    rw [registry, hc]
    exact (Client.get?_submit_of_ne (s := .completion id) hne).trans he
  case dispatched event h =>
    rw [h, get?_dispatch, he]
    cases event <;> rfl
  case finished i _ _ _ hc _ _ =>
    rw [registry, hc]
    refine (Dispatcher.get?_finish i _).trans ?_
    have he : t.connection.dispatcher.registry.get? (.completion id) = some e := he
    simp [he]
  case cleared h _ _ => rw [h]; exact Registry.get?_clear _

-- Replies are added, and none is settled but by a dispatch.
theorem replies :
    (∃ added, t'.replies = t.replies ++ added ∧ sign.bind (t.settled n) = none) ∨
      ∃ event, t' = t.dispatch event ∧ sign = Sign.of? event := by
  cases h
  case dispatched event h => exact .inr ⟨event, h, rfl⟩
  case asked added _ _ h _ => exact .inl ⟨added, h, rfl⟩
  case still h | finished h | cleared h => exact .inl ⟨[], by rw [h, List.append_nil], rfl⟩

-- A reply that has been given out gets no further callback.
theorem awaitsAt {r : Option Reply} (ht : t.Tidy) (hn : t.replies[n]? = some r)
    (ha : t'.registry.AwaitsAt n id) : t.registry.AwaitsAt n id := by
  have hl := (List.getElem?_eq_some_iff.mp hn).choose
  rcases h.of_awaitsAt ht ha with ha | ⟨rfl, _⟩
  case inl => exact ha
  case inr => exact absurd hl (Nat.lt_irrefl _)

theorem unsettled (hn : t.replies[n]? = some none) :
    t'.replies[n]? = some (sign.bind (t.settled n)) := by
  rcases h.replies (n := n) with ⟨added, h, hs⟩ | ⟨event, rfl, rfl⟩
  case inr => exact getElem?_dispatch hn
  case inl =>
    have hl := (List.getElem?_eq_some_iff.mp hn).choose
    rw [h, hs, List.getElem?_append_left hl, hn]

theorem settled {r : Reply} (hn : t.replies[n]? = some (some r)) :
    t'.replies[n]? = some (some r) := by
  rcases h.replies (n := n) with ⟨added, h, _⟩ | ⟨event, rfl, _⟩
  case inr => exact getElem?_dispatch_settled hn
  case inl =>
    have hl := (List.getElem?_eq_some_iff.mp hn).choose
    rw [h, List.getElem?_append_left hl, hn]

theorem length : t.replies.length ≤ t'.replies.length := by
  rcases h.replies (n := 0) with ⟨added, h, _⟩ | ⟨event, rfl, _⟩
  case inr => exact Nat.le_of_eq length_dispatch.symm
  case inl => rw [h, List.length_append]; exact Nat.le_add_right ..

theorem tidy (ht : t.Tidy) : t'.Tidy where
  numbered n id ha := by
    rcases h.of_awaitsAt ht ha with ha | ⟨_, hl⟩
    case inl => exact Nat.lt_of_lt_of_le (ht.numbered n id ha) h.length
    case inr => exact hl
  running i hi := by
    cases h
    case still h _           => exact ht.running i (h ▸ hi)
    case asked h _ _         => exact ht.running i (h ▸ hi)
    case dispatched h        => exact (running_dispatch (h ▸ hi)).elim (ht.running i) id
    case finished hb _ h _   => exact ht.running i (by rw [hb]; exact .tail _ (h ▸ hi))
    case cleared h _         => exact ht.running i (h ▸ hi)

end Effect

theorem Tidy.run (ht : t.Tidy) {ms : List Move} : (t.run ms).Tidy := by
  induction ms generalizing t
  case nil          => exact ht
  case cons m ms ih => exact ih ((step_effect m).tidy ht)

-- The callback of one request is waited for, and it gives the reply.
structure Waits (n : Nat) (id : RequestId) (reply : CompletionEvent → Reply) (t : Awaiting) :
    Prop where
  unsettled : t.replies[n]? = some none
  issued    : id.number < t.registry.nextId.number
  callback  : ∃ e, t.registry.get? (.completion id) = some e ∧ e.handler.receiver = .reply n ∧
    e.handler.reply = reply
  only      : ∀ id', t.registry.AwaitsAt n id' → id' = id

-- How far a reply has come, and what becomes of it from here.
inductive Stage (n : Nat) (t : Awaiting) : (List Sign → Awaited) → Prop
  | waits {id : RequestId} {reply : CompletionEvent → Reply} (waits : t.Waits n id reply) :
      Stage n t (fate id reply)
  | settled {r : Reply} (settled : t.replies[n]? = some (some r)) :
      Stage n t fun _ => .settled (.ok r)
  -- No callback can settle the reply any more.
  | lost (unsettled : t.replies[n]? = some none) (nobody : ∀ id, ¬t.registry.AwaitsAt n id) :
      Stage n t fun _ => .settled (.error .shuttingDown)

theorem Stage.ask {f : List Sign → Awaited} (h : Stage n t f) : t.ask n = f [] := by
  cases h
  case waits h =>
    have ⟨e, he, hr, _⟩ := h.callback
    have ha : t.registry.awaits n := Registry.awaits_iff.mpr ⟨_, e, he, hr⟩
    simp only [Awaiting.ask, Replies.ask, h.unsettled, ha, if_true, fate]
  case settled h => simp only [Awaiting.ask, Replies.ask, h]
  case lost h hn =>
    have ha : ¬t.registry.awaits n := fun h => (Registry.awaits_iff.mp h).elim hn
    simp only [Awaiting.ask, Replies.ask, h, if_neg ha]

theorem settled_eq_none {s : Sign}
    (h : ∀ c, s = .answered c → ¬t.registry.AwaitsAt n c.id) : t.settled n s = none := by
  cases s
  case cleared => rfl
  case answered c =>
    refine Option.eq_none_iff_forall_ne_some.mpr fun r hr => ?_
    exact h c rfl <| Registry.awaitsAt_of_replyTo hr

section

variable (h : Effect t t' sign) (ht : t.Tidy)
include h ht

theorem Waits.kept (w : t.Waits n id reply) (hs : sign.any (·.takes id) = false) :
    t'.Waits n id reply where
  issued := Int.lt_of_lt_of_le w.issued h.nextId
  only id' ha := w.only id' <| h.awaitsAt ht w.unsettled ha
  callback := by
    have ⟨e, he, hr⟩ := w.callback
    refine ⟨e, ?_, hr⟩
    rw [h.get? w.issued he, if_neg (by simp [hs])]
  unsettled := by
    rw [h.unsettled w.unsettled]
    cases sign
    case none => rfl
    case some s =>
      refine congrArg some <| settled_eq_none fun c hc ha => ?_
      have := w.only _ ha
      simp_all [Sign.takes]

-- The answer finds the callback, and a clearing leaves nobody.
theorem Stage.step {f : List Sign → Awaited} (hs : Stage n t f) :
    Stage n t' fun rest => f (sign.toList ++ rest) := by
  cases hs
  case settled hn => exact .settled (h.settled hn)
  case lost hn hb =>
    refine .lost ?_ fun id ha => hb id <| h.awaitsAt ht hn ha
    rw [h.unsettled hn]
    cases sign
    case none => rfl
    case some => exact congrArg some <| settled_eq_none fun c _ => hb c.id
  case waits id reply w =>
    cases hs : sign.any (·.takes id)
    case false =>
      have hf : (fun rest => fate id reply (sign.toList ++ rest)) = fate id reply := by
        rcases sign with _ | _ | _ <;> simp_all [Sign.takes, fate]
      rw [hf]
      exact .waits <| w.kept h ht hs
    case true =>
      obtain ⟨e, he, hr, hc⟩ := w.callback
      have hu := h.unsettled w.unsettled
      have hg := h.get? w.issued he
      rw [if_pos hs] at hg
      rcases sign with _ | c | _
      case none => cases hs
      case some.answered =>
        obtain rfl : c.id = id := by simpa [Sign.takes] using hs
        rw [Option.bind_some, Awaiting.settled, Registry.replyTo_eq he hr, hc] at hu
        simpa [fate] using Stage.settled hu
      case some.cleared =>
        refine .lost hu fun id' ha => ?_
        obtain rfl := w.only id' <| h.awaitsAt ht w.unsettled ha
        obtain ⟨_, ha, _⟩ := ha
        cases hg.symm.trans ha

end

-- Induction on the moves: what is left of the signs decides what becomes of the reply.
theorem Stage.ask_run {f : List Sign → Awaited} (hs : Stage n t f) (ht : t.Tidy) (ms : List Move) :
    (t.run ms).ask n = f (t.signs ms) := by
  induction ms generalizing t f
  case nil => exact hs.ask
  case cons m ms ih =>
    have h := step_effect (t := t) m
    exact ih (hs.step h ht) (h.tidy ht)

-- The request under which a call is accepted whose reply is waited for.
def acceptedAs (op : Operation) (o : CallOptions Handler) (t : Awaiting) : Option RequestId :=
  Client.accepted? (t.submit op o (some (.reply t.replies.length))).1

-- What becomes of the reply to a call that may have been accepted.
def prospect (reply : CompletionEvent → Reply) : Option RequestId → List Sign → Awaited
  | some id => fate id reply
  | none => fun _ => .settled (.error .shuttingDown)

-- The callback of the call is the only one that settles the new reply.
theorem Tidy.stage_await (ht : t.Tidy) (op : Operation) (o : CallOptions Handler) :
    Stage t.replies.length (t.step (.await op o))
      (prospect (fun c => Client.reply op c.id t.connection.target ⟨c.rc, c.payload⟩)
        (t.acceptedAs op o)) := by
  have hn : (t.step (.await op o)).replies[t.replies.length]? = some none :=
    List.getElem?_concat_length
  have nobody id : ¬t.registry.AwaitsAt t.replies.length id := fun h =>
    Nat.lt_irrefl _ (ht.numbered _ _ h)
  have h := @Client.submit_async _ _ _ t.connection op
    (o.receivedBy (some (.reply t.replies.length))) rfl
  rcases ha : t.acceptedAs op o with _ | id <;>
    simp only [acceptedAs, submit] at ha <;> rw [ha] at h
  case none =>
    refine .lost hn fun id ⟨e, he, hr⟩ => ?_
    rcases h id with h | h
    case inl => cases h.symm.trans he
    case inr => exact nobody id ⟨e, h ▸ he, hr⟩
  case some =>
    obtain ⟨rfl, hl, hg⟩ := h
    have ⟨e, hg, hr, hc⟩ := Client.of_completionEntry hg rfl
    refine .waits ⟨hn, hl, ⟨e, hg, hr, funext hc⟩, fun id ⟨e, he, hr⟩ => ?_⟩
    by_cases hid : id = t.registry.nextId
    case pos => exact hid
    case neg =>
      have he := (Client.get?_submit_of_ne (s := .completion id) hid).symm.trans he
      exact absurd ⟨e, he, hr⟩ (nobody id)

theorem fate_append {ss rest : List Sign} :
    fate id reply (ss ++ rest) =
      match fate id reply ss with
      | .pending => fate id reply rest
      | a => a := by
  induction ss
  case nil => rfl
  case cons s ss ih =>
    cases s
    case cleared => rfl
    case answered c =>
      by_cases h : c.id = id
      case pos => simp [fate, h]
      case neg => simp [fate, h, ih]

theorem fate_eq_pending_iff {ss : List Sign} :
    fate id reply ss = .pending ↔ ∀ s ∈ ss, s.takes id = false := by
  induction ss
  case nil => simp [fate]
  case cons s ss ih =>
    cases s
    case cleared => simp [fate, Sign.takes]
    case answered c => by_cases h : c.id = id <;> simp [fate, Sign.takes, h, ih]

theorem signs_append {ms ms' : List Move} :
    t.signs (ms ++ ms') = t.signs ms ++ (t.run ms).signs ms' := by
  induction ms generalizing t
  case nil => rfl
  case cons m ms ih => simp only [List.cons_append, signs, ih, List.append_assoc]; rfl

-- The first sign that takes the callback out decides what becomes of a reply. Nothing is pending
-- after a session is started anew. After closing, a reply is pending just if the call was accepted
-- and no sign has taken its callback out.
theorem ask_after_await (target : Target) (config : Config) (m : Memory)
    (global : Entry (Callback Receiver)) (before after : List Move) (op : Operation)
    (o : CallOptions Handler) (timeout : Duration) :
    let t := (unopened target config m global).run before
    let n := t.replies.length
    let asked := t.step (.await op o)
    let reply c := Client.reply op c.id t.connection.target ⟨c.rc, c.payload⟩
    (asked.run after).ask n = prospect reply (t.acceptedAs op o) (asked.signs after) ∧
    (asked.run (after ++ [.reopen timeout])).ask n =
      (match (asked.run after).ask n with
        | .pending => .settled (.error .shuttingDown)
        | a => a) ∧
    ((asked.run (after ++ [.close])).ask n = .pending ↔
      ∃ id, t.acceptedAs op o = some id ∧ ∀ s ∈ asked.signs after, s.takes id = false) := by
  intro t n asked reply
  have ht : t.Tidy := tidy_unopened target config m global |>.run
  have h ms : (asked.run ms).ask n = prospect reply (t.acceptedAs op o) (asked.signs ms) :=
    (ht.stage_await op o).ask_run ((step_effect _).tidy ht) ms
  refine ⟨h after, ?_, ?_⟩
  case refine_1 =>
    have hs : asked.signs (after ++ [.reopen timeout]) = asked.signs after ++ [.cleared] :=
      signs_append
    rw [h, h, hs]
    cases t.acceptedAs op o
    case none => rfl
    case some => exact fate_append
  case refine_2 =>
    have hs : asked.signs (after ++ [.close]) = asked.signs after :=
      signs_append.trans <| List.append_nil _
    rw [h, hs]
    cases t.acceptedAs op o
    case none => simp [prospect]
    case some => simp [prospect, fate_eq_pending_iff]

-- An open client whose service keeps completions back.
def held : Awaiting :=
  (unopened ⟨"h", ["h"], none⟩ {} (.new 0) .silent).run [
    .open (.ofMillis 0), .serve ({ · with holding := true })]

-- A reply is waited for, the connection is closed, and the reply is still pending: its callback is
-- registered.
theorem pending_after_close :
    let t := held.run [.await (.get "/" false) {}, .close]
    t.connection.closed ∧ t.registry.awaits 0 ∧ t.ask 0 = .pending := by
  intro t
  have hr : t.replies[0]? = some none := by decide +kernel
  have ha : t.registry.awaits 0 := by decide +kernel
  exact ⟨by decide +kernel, ha, by simp only [ask, Replies.ask, hr, ha, if_true]⟩

end Coordination.Awaiting
