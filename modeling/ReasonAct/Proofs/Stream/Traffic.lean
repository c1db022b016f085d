import ReasonAct.Stream.Channel
/-!
A streamed run as its producers and its consumer carry it on, one step after another in any order. A
send is two steps, for the sender looks for the sign to stop before it turns to the queue; so is a
cancelling, which gives the sign before it closes the queue.
-/
set_option autoImplicit false

namespace ReasonAct.Channel

variable {α : Type}

section Queue

variable {c : Channel α} {e : α} {rest : List α}

theorem push_of_closed (hc : c.closed = true) : c.push e = (.refused, c) := by simp [push,hc]

theorem push_of_room (hc : c.closed = false) (hroom : c.queue.length < c.capacity) :
    c.push e = (.accepted, { c with queue := c.queue ++ [e] }) := by
  simp [push,hc,hroom]

theorem push_of_full (hc : c.closed = false) (hfull : c.capacity ≤ c.queue.length) :
    c.push e = (.full, c) := by
  simp [push,hc,Nat.not_lt.mpr hfull]

theorem send_of_not_cancelled (hc : c.cancelled = false) : c.send e = c.push e := by
  simp [send,hc]

theorem receive_of_cons (hq : c.queue = e :: rest) :
    c.receive = (.event e, { c with queue := rest }) := by
  simp [receive,hq]

theorem receive_of_over (hq : c.queue = []) (hover : c.closed = true ∨ c.senders = 0) :
    c.receive = (.ended, c) := by
  simp [receive,hq,hover]

theorem receive_of_not_over (hq : c.queue = []) (hover : ¬ (c.closed = true ∨ c.senders = 0)) :
    c.receive = (.waiting, c) := by
  simp [receive,hq,hover]

end Queue

inductive Answer (α : Type) where
  | sent (i : Nat) (e : α) (taken : Bool)
  | received (e : α)
  | ended
  | cancelled
  deriving DecidableEq

namespace Answer

@[simp] def accepted? : Answer α → Option α
  | .sent _ e true => some e
  | _ => none

@[simp] def delivered? : Answer α → Option α
  | .received e => some e
  | _ => none

end Answer

section Log

variable (log : List (Answer α))

def accepted : List α := log.filterMap Answer.accepted?

def delivered : List α := log.filterMap Answer.delivered?

@[simp] theorem accepted_concat (a : Answer α) :
    accepted (log ++ [a]) = accepted log ++ a.accepted?.toList := by
  rw [accepted,List.filterMap_append,List.filterMap_cons]
  cases a.accepted? <;> rfl

@[simp] theorem delivered_concat (a : Answer α) :
    delivered (log ++ [a]) = delivered log ++ a.delivered?.toList := by
  rw [delivered,List.filterMap_append,List.filterMap_cons]
  cases a.delivered? <;> rfl

end Log

/-- Senders go by numbers, sends by their places among those under way. -/
inductive Step (α : Type) where
  /-- A sender that has an event looks for the sign to stop. -/
  | offer (i : Nat) (e : α)
  /-- A send turns to the queue, and comes again if that is full. -/
  | push (k : Nat)
  /-- A send is given up. -/
  | abandon (k : Nat)
  | clone (i j : Nat)
  | drop (i : Nat)
  | poll
  /-- The consumer looks for an event, and comes again if it has to wait. -/
  | next
  | announce
  | close
  deriving DecidableEq

def Step.receives : Step α → Bool
  | .poll | .next => true
  | _ => false

def receptions (steps : List (Step α)) : Nat := steps.countP Step.receives

structure Traffic (α : Type) where
  channel : Channel α
  senders : List Nat
  /-- The sends that saw no sign to stop and are not answered, latest first. -/
  underway : List (Nat × α)
  /-- All that was told, in order. -/
  log : List (Answer α)
  deriving DecidableEq

namespace Traffic

def start (capacity : Nat) : Traffic α := ⟨create capacity, [0], [], []⟩

def tell (t : Traffic α) (a : Answer α) : Traffic α := { t with log := t.log ++ [a] }

section Simp

variable (t : Traffic α) (a : Answer α)

@[simp] theorem channel_tell : (t.tell a).channel = t.channel := rfl
@[simp] theorem senders_tell : (t.tell a).senders = t.senders := rfl
@[simp] theorem log_tell : (t.tell a).log = t.log ++ [a] := rfl

end Simp

def settle (t : Traffic α) (k i : Nat) (e : α) : Sent × Channel α → Traffic α
  | (.accepted, c) => ⟨c, t.senders, t.underway.eraseIdx k, t.log ++ [.sent i e true]⟩
  | (.refused, c) => ⟨c, t.senders, t.underway.eraseIdx k, t.log ++ [.sent i e false]⟩
  | (.full, c) => { t with channel := c }

/-- A step that cannot be made now changes nothing. Senders are not dropped while they send. -/
def step (t : Traffic α) : Step α → Traffic α
  | .offer i e =>
    if i ∈ t.senders then
      if t.channel.cancelled then t.tell (.sent i e false)
      else { t with underway := (i, e) :: t.underway }
    else t
  | .push k =>
    match t.underway[k]? with
    | some (i, e) => t.settle k i e (t.channel.push e)
    | none => t
  | .abandon k => { t with underway := t.underway.eraseIdx k }
  | .clone i j =>
    if i ∈ t.senders ∧ j ∉ t.senders then
      { t with channel := t.channel.addSender, senders := j :: t.senders }
    else t
  | .drop i =>
    if i ∈ t.senders ∧ ∀ p ∈ t.underway, p.1 ≠ i then
      { t with channel := t.channel.dropSender, senders := t.senders.erase i }
    else t
  | .poll =>
    match t.channel.receive with
    | (.event e, c) => { t with channel := c, log := t.log ++ [.received e] }
    | (_, c) => { t with channel := c }
  | .next =>
    match t.channel.receive with
    | (.event e, c) => { t with channel := c, log := t.log ++ [.received e] }
    | (.ended, c) => { t with channel := c, log := t.log ++ [.ended] }
    | (.waiting, c) => { t with channel := c }
  | .announce => { t with channel := t.channel.announce }
  -- The consumer may make other steps after the sign, which is more than it does.
  | .close =>
    if t.channel.cancelled then
      { t with channel := t.channel.close, log := t.log ++ [.cancelled] }
    else t

def runFrom (t : Traffic α) (steps : List (Step α)) : Traffic α := steps.foldl step t

def run (capacity : Nat) (steps : List (Step α)) : Traffic α := (start capacity).runFrom steps

variable {t : Traffic α}

theorem offer_push {i : Nat} (hi : i ∈ t.senders) (hc : t.channel.cancelled = false) (e : α) :
    t.runFrom [.offer i e, .push 0] =
      { t with underway := (i, e) :: t.underway }.settle 0 i e (t.channel.send e) := by
  simp [runFrom,step,hi,hc,send_of_not_cancelled hc]

/-- All that one step can do, and whether the consumer looks for an event in it. -/
inductive Move (t : Traffic α) : Bool → Traffic α → Prop
  | still : Move t false t
  | begun (i : Nat) (e : α) (sender : i ∈ t.senders) :
    Move t false { t with underway := (i, e) :: t.underway }
  | stopped (i : Nat) (e : α) : Move t false (t.tell (.sent i e false))
  | refused (k i : Nat) (e : α) :
    Move t false { t.tell (.sent i e false) with underway := t.underway.eraseIdx k }
  | taken (k i : Nat) (e : α) (underway : (i, e) ∈ t.underway) (unclosed : t.channel.closed = false)
      (room : t.channel.queue.length < t.channel.capacity) :
    Move t false ⟨{ t.channel with queue := t.channel.queue ++ [e] }, t.senders,
      t.underway.eraseIdx k, t.log ++ [.sent i e true]⟩
  | abandoned (k : Nat) : Move t false { t with underway := t.underway.eraseIdx k }
  | cloned (i j : Nat) (sender : i ∈ t.senders) :
    Move t false { t with channel := t.channel.addSender, senders := j :: t.senders }
  | dropped (i : Nat) (sender : i ∈ t.senders) (idle : ∀ p ∈ t.underway, p.1 ≠ i) :
    Move t false { t with channel := t.channel.dropSender, senders := t.senders.erase i }
  | missed (empty : t.channel.queue = []) : Move t true t
  | received (e : α) (rest : List α) (queue : t.channel.queue = e :: rest) :
    Move t true
      { t with channel := { t.channel with queue := rest }, log := t.log ++ [.received e] }
  | ended (empty : t.channel.queue = [])
      (gone : t.channel.closed = true ∨ t.channel.senders = 0) : Move t true (t.tell .ended)
  | announced : Move t false { t with channel := t.channel.announce }
  | closed (cancelled : t.channel.cancelled = true) :
    Move t false { t with channel := t.channel.close, log := t.log ++ [.cancelled] }

theorem move_settle {k i : Nat} {e : α} (hk : t.underway[k]? = some (i, e)) :
    t.Move false (t.settle k i e (t.channel.push e)) := by
  cases hc : t.channel.closed with
  | true =>
    rw [push_of_closed hc]
    exact .refused k i e
  | false =>
    rcases Nat.lt_or_ge t.channel.queue.length t.channel.capacity with hroom | hfull
    · rw [push_of_room hc hroom]
      exact .taken k i e (List.mem_of_getElem? hk) hc hroom
    · rw [push_of_full hc hfull]
      exact .still

theorem move_step (t : Traffic α) (s : Step α) : t.Move s.receives (t.step s) := by
  cases s with
  | offer i e =>
    simp only [step]
    split
    · rename_i hi
      split
      · exact .stopped i e
      · exact .begun i e hi
    · exact .still
  | push k =>
    simp only [step]
    split
    · rename_i hk
      exact move_settle hk
    · exact .still
  | abandon k => exact .abandoned k
  | clone i j =>
    simp only [step]
    split
    · rename_i h
      exact .cloned i j h.1
    · exact .still
  | drop i =>
    simp only [step]
    split
    · rename_i h
      exact .dropped i h.1 h.2
    · exact .still
  | poll =>
    cases hq : t.channel.queue with
    | cons e rest =>
      simp only [step,receive_of_cons hq]
      exact .received e rest hq
    | nil =>
      by_cases hover : t.channel.closed = true ∨ t.channel.senders = 0
      · simp only [step,receive_of_over hq hover]
        exact .missed hq
      · simp only [step,receive_of_not_over hq hover]
        exact .missed hq
  | next =>
    cases hq : t.channel.queue with
    | cons e rest =>
      simp only [step,receive_of_cons hq]
      exact .received e rest hq
    | nil =>
      by_cases hover : t.channel.closed = true ∨ t.channel.senders = 0
      · simp only [step,receive_of_over hq hover]
        exact .ended hq hover
      · simp only [step,receive_of_not_over hq hover]
        exact .missed hq
  | announce => exact .announced
  | close =>
    simp only [step]
    split
    · rename_i hc
      exact .closed hc
    · exact .still

end Traffic
end ReasonAct.Channel
