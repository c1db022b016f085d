import ReasonAct.Proofs.Stream.Traffic
import ReasonAct.Stream.Event
set_option autoImplicit false

namespace ReasonAct.Channel.Traffic

variable {α : Type} {capacity : Nat} {t t' : Traffic α} {looks : Bool}

/-- The queue holds what was taken and not delivered. -/
structure Sound (capacity : Nat) (t : Traffic α) : Prop where
  capacity_eq : t.channel.capacity = max capacity 1
  bounded : t.channel.queue.length ≤ max capacity 1
  balanced : accepted t.log = delivered t.log ++ t.channel.queue
  counted : t.channel.senders = t.senders.length
  attended : ∀ p ∈ t.underway, p.1 ∈ t.senders
  signed : t.channel.closed = true → t.channel.cancelled = true
  closed_iff : t.channel.closed = true ↔ .cancelled ∈ t.log
  final : .ended ∈ t.log → t.channel.queue = [] ∧ (t.channel.closed = true ∨ t.senders = [])

namespace Sound

theorem start (capacity : Nat) : Sound capacity (Traffic.start (α := α) capacity) := by
  refine ⟨rfl,Nat.zero_le _,rfl,rfl,?_,?_,?_,?_⟩ <;> simp [Traffic.start,create]

theorem abandon (hs : t.Sound capacity) (k : Nat) :
    Sound capacity { t with underway := t.underway.eraseIdx k } :=
  { hs with attended := fun p hp => hs.attended p (List.mem_of_mem_eraseIdx hp) }

theorem refuse (hs : t.Sound capacity) (i : Nat) (e : α) :
    (t.tell (.sent i e false)).Sound capacity :=
  { hs with
    balanced := by simpa using hs.balanced
    closed_iff := by simpa using hs.closed_iff
    final := by simpa using hs.final }

/-- While a send is under way its sender is there, so that the end is told for a closed queue only. -/
theorem not_ended (hs : t.Sound capacity) {p : Nat × α} (hp : p ∈ t.underway)
    (hc : t.channel.closed = false) : .ended ∉ t.log := by
  intro hended
  rcases (hs.final hended).2 with hclosed | hgone
  · simp [hc] at hclosed
  · have hsender := hs.attended p hp
    simp [hgone] at hsender

theorem take (hs : t.Sound capacity) {i : Nat} {e : α} (hu : (i, e) ∈ t.underway)
    (hc : t.channel.closed = false) (hroom : t.channel.queue.length < t.channel.capacity) :
    Sound capacity ⟨{ t.channel with queue := t.channel.queue ++ [e] }, t.senders, t.underway,
      t.log ++ [.sent i e true]⟩ := by
  have hopen := hs.not_ended hu hc
  have hlt := hs.capacity_eq ▸ hroom
  exact { hs with
    bounded := by rw [List.length_append]; exact hlt
    balanced := by simp [hs.balanced]
    closed_iff := by simpa using hs.closed_iff
    final := by simp [hopen] }

theorem deliver (hs : t.Sound capacity) {e : α} {rest : List α}
    (hq : t.channel.queue = e :: rest) :
    Sound capacity { t.tell (.received e) with channel := { t.channel with queue := rest } } := by
  have hbounded := hs.bounded
  have hbalanced := hs.balanced
  rw [hq] at hbounded hbalanced
  refine { hs with bounded := ?_, balanced := ?_, closed_iff := ?_, final := ?_ }
  · exact Nat.le_of_succ_le hbounded
  · simp [hbalanced]
  · simpa using hs.closed_iff
  · intro hended
    have hnil := (hs.final (by simpa using hended)).1
    simp [hq] at hnil

theorem final_of_sender (hs : t.Sound capacity) {i : Nat} (hi : i ∈ t.senders)
    (hended : .ended ∈ t.log) : t.channel.queue = [] ∧ t.channel.closed = true := by
  obtain ⟨hq,hclosed | hgone⟩ := hs.final hended
  · exact ⟨hq,hclosed⟩
  · simp [hgone] at hi

theorem move (hs : t.Sound capacity) (hm : t.Move looks t') : t'.Sound capacity := by
  cases hm with
  | still => exact hs
  | begun i e hi => exact { hs with attended := by simpa [hi] using hs.attended }
  | stopped i e => exact hs.refuse i e
  | refused k i e => exact (hs.refuse i e).abandon k
  | taken k i e hu hc hroom => exact (hs.take hu hc hroom).abandon k
  | abandoned k => exact hs.abandon k
  | cloned i j hi =>
    exact { hs with
      counted := by simp [addSender,hs.counted]
      attended := fun p hp => List.mem_cons_of_mem j (hs.attended p hp)
      final := fun hended => (hs.final_of_sender hi hended).imp_right .inl }
  | dropped i hi hidle =>
    exact { hs with
      counted := by simp [dropSender,hs.counted,List.length_erase_of_mem hi]
      attended := fun p hp => (List.mem_erase_of_ne (hidle p hp)).mpr (hs.attended p hp)
      final := fun hended => (hs.final_of_sender hi hended).imp_right .inl }
  | missed hq => exact hs
  | received e rest hq => exact hs.deliver hq
  | ended hq hover =>
    rw [hs.counted,List.length_eq_zero_iff] at hover
    exact { hs with
      balanced := by simpa using hs.balanced
      closed_iff := by simpa using hs.closed_iff
      final := fun _ => ⟨hq,hover⟩ }
  | announced => exact { hs with signed := fun _ => rfl }
  | closed hc =>
    exact { hs with
      balanced := by simpa [close] using hs.balanced
      signed := fun _ => hc
      closed_iff := by simp [close]
      final := fun hended => ⟨(hs.final (by simpa using hended)).1,.inl rfl⟩ }

theorem runFrom (hs : t.Sound capacity) (steps : List (Step α)) :
    (t.runFrom steps).Sound capacity := by
  induction steps generalizing t with
  | nil => exact hs
  | cons s steps ih => exact ih (hs.move (move_step t s))

theorem run (capacity : Nat) (steps : List (Step α)) :
    (Traffic.run capacity steps).Sound capacity := (start capacity).runFrom steps

theorem take_accepted (hs : t.Sound capacity) (n : Nat) :
    (accepted t.log).take ((delivered t.log).length + n) =
      delivered t.log ++ t.channel.queue.take n := by
  rw [hs.balanced,List.take_length_add_append]

theorem queue_eq_nil_iff (hs : t.Sound capacity) :
    t.channel.queue = [] ↔ delivered t.log = accepted t.log := by
  rw [hs.balanced,List.self_eq_append_right]

theorem hasRoom_iff (hs : t.Sound capacity) : t.channel.queue.length < t.channel.capacity ↔
    (accepted t.log).length < (delivered t.log).length + max capacity 1 := by
  rw [hs.capacity_eq,hs.balanced,List.length_append]
  omega

theorem over_iff (hs : t.Sound capacity) : t.channel.closed = true ∨ t.channel.senders = 0 ↔
    .cancelled ∈ t.log ∨ t.senders = [] := by
  rw [hs.closed_iff,hs.counted,List.length_eq_zero_iff]

end Sound

theorem Move.delivered_eq (hm : t.Move looks t') :
    delivered t'.log = delivered t.log ++ t.channel.queue.take looks.toNat := by
  cases hm with
  | missed hq => simp [hq]
  | received e rest hq => simp [hq]
  | ended hq => simp [hq]
  | _ => simp

theorem Move.of_closed (hm : t.Move looks t') (hc : t.channel.closed = true) :
    t'.channel.closed = true ∧ accepted t'.log = accepted t.log ∧
      t'.channel.queue = t.channel.queue.drop looks.toNat := by
  cases hm with
  | taken k i e hu hopen => simp [hc] at hopen
  | missed hq => simp [hc,hq]
  | received e rest hq => simp [hc,hq]
  | ended hq => simp [hc,hq]
  | closed => simp [close]
  | _ => simp [hc,addSender,dropSender,announce]

theorem runFrom_closed (hc : t.channel.closed = true) (more : List (Step α)) :
    accepted (t.runFrom more).log = accepted t.log ∧
      delivered (t.runFrom more).log =
        delivered t.log ++ t.channel.queue.take (receptions more) := by
  induction more generalizing t with
  | nil => simp [runFrom,receptions]
  | cons s more ih =>
    -- What a look leaves in the queue is what the next looks find, since nothing is added.
    have hm := move_step t s
    obtain ⟨hclosed,haccepted,hqueue⟩ := hm.of_closed hc
    obtain ⟨ha,hd⟩ := ih hclosed
    have hcount : receptions (s :: more) = s.receives.toNat + receptions more := by
      cases hr : s.receives <;> simp [receptions,hr,Nat.add_comm]
    refine ⟨ha.trans haccepted,?_⟩
    calc delivered ((t.step s).runFrom more).log
        = delivered t.log ++ (t.channel.queue.take s.receives.toNat ++
            (t.channel.queue.drop s.receives.toNat).take (receptions more)) := by
          rw [hd,hm.delivered_eq,hqueue,List.append_assoc]
      _ = delivered t.log ++ t.channel.queue.take (receptions (s :: more)) := by
          rw [hcount,List.take_add]

theorem step_next_of_over (hq : t.channel.queue = [])
    (hover : t.channel.closed = true ∨ t.channel.senders = 0) : t.step .next = t.tell .ended := by
  simp [step,receive_of_over hq hover,tell]

theorem step_offer_of_cancelled {i : Nat} (hi : i ∈ t.senders) (hc : t.channel.cancelled = true)
    (e : α) : t.step (.offer i e) = t.tell (.sent i e false) := by
  simp [step,hi,hc]

theorem step_push_of_closed {k i : Nat} {e : α} (hk : t.underway[k]? = some (i, e))
    (hc : t.channel.closed = true) :
    t.step (.push k) = { t.tell (.sent i e false) with underway := t.underway.eraseIdx k } := by
  simp [step,hk,push_of_closed hc,settle]

theorem log_offer_push {i : Nat} (hi : i ∈ t.senders) (hcancelled : t.channel.cancelled = false)
    (hclosed : t.channel.closed = false) (hroom : t.channel.queue.length < t.channel.capacity)
    (e : α) : (t.runFrom [.offer i e, .push 0]).log = t.log ++ [.sent i e true] := by
  rw [offer_push hi hcancelled,send_of_not_cancelled hcancelled,push_of_room hclosed hroom]
  rfl

/-- Whatever steps the producers and the consumer make, in whatever order: what is delivered is a
prefix of what was taken, and the rest fits into the channel. A cancelling lets nothing more in and
leaves what is there to be delivered. The end is told when nothing is left and nothing can come. -/
theorem taken_events_delivered (capacity : Nat) (steps : List (Step α)) (t : Traffic α)
    (ht : run capacity steps = t) :
    delivered t.log <+: accepted t.log ∧
    (accepted t.log).length ≤ (delivered t.log).length + max capacity 1 ∧
    (.cancelled ∈ t.log →
      (∀ i ∈ t.senders, ∀ e, t.step (.offer i e) = t.tell (.sent i e false)) ∧
      (∀ k i e, t.underway[k]? = some (i, e) →
        t.step (.push k) = { t.tell (.sent i e false) with underway := t.underway.eraseIdx k }) ∧
      ∀ more, accepted (t.runFrom more).log = accepted t.log ∧
        delivered (t.runFrom more).log =
          (accepted t.log).take ((delivered t.log).length + receptions more)) ∧
    (.ended ∈ t.log → delivered t.log = accepted t.log ∧ (.cancelled ∈ t.log ∨ t.senders = [])) ∧
    (delivered t.log = accepted t.log → .cancelled ∈ t.log ∨ t.senders = [] →
      t.step .next = t.tell .ended) ∧
    (∀ s : Step α, s.receives = true →
      delivered (t.step s).log = (accepted t.log).take ((delivered t.log).length + 1)) ∧
    (t.channel.cancelled = false →
      (accepted t.log).length < (delivered t.log).length + max capacity 1 →
      ∀ i ∈ t.senders, ∀ e,
        (t.runFrom [.offer i e, .push 0]).log = t.log ++ [.sent i e true]) := by
  have hs : t.Sound capacity := ht ▸ .run capacity steps
  refine ⟨?_,?_,?_,?_,?_,?_,?_⟩
  · rw [hs.balanced]
    exact List.prefix_append _ _
  · rw [hs.balanced,List.length_append]
    exact Nat.add_le_add_left hs.bounded _
  · intro hcancelled
    have hc := hs.closed_iff.mpr hcancelled
    refine ⟨?_,?_,?_⟩
    · exact fun i hi e => step_offer_of_cancelled hi (hs.signed hc) e
    · exact fun k i e hk => step_push_of_closed hk hc
    · intro more
      rw [hs.take_accepted]
      exact runFrom_closed hc more
  · intro hended
    obtain ⟨hq,hover⟩ := hs.final hended
    exact ⟨hs.queue_eq_nil_iff.mp hq,hover.imp_left hs.closed_iff.mp⟩
  · intro hall hover
    exact step_next_of_over (hs.queue_eq_nil_iff.mpr hall) (hs.over_iff.mpr hover)
  · intro s hlooks
    rw [hs.take_accepted,(move_step t s).delivered_eq,hlooks]
    rfl
  · intro hcancelled hroom i hi e
    have hclosed : t.channel.closed = false :=
      Bool.eq_false_iff.mpr fun hc => by simp [hs.signed hc] at hcancelled
    exact log_offer_push hi hcancelled hclosed (hs.hasRoom_iff.mpr hroom) e

def overtaken : List (Step StreamEvent) :=
  [.clone 0 1, .offer 0 (.delta "a"), .push 0, .offer 1 (.delta "b"), .push 0, .next,
    .offer 0 (.delta "c"), .push 1, .announce, .close]

theorem taken_events_delivered_overtaken :
    (run 1 overtaken).log = [.sent 0 (.delta "a") true, .received (.delta "a"),
      .sent 1 (.delta "b") true, .cancelled] ∧
    (run 1 overtaken).step (.offer 1 (.delta "d")) =
      (run 1 overtaken).tell (.sent 1 (.delta "d") false) ∧
    ((run 1 overtaken).step (.push 0)).log =
      (run 1 overtaken).log ++ [.sent 0 (.delta "c") false] ∧
    delivered ((run 1 overtaken).runFrom [.push 0, .poll, .next]).log =
      [.delta "a", .delta "b"] ∧
    delivered (run 1 (overtaken ++ [.poll, .next])).log =
      accepted (run 1 (overtaken ++ [.poll, .next])).log ∧
    (run 1 (overtaken ++ [.poll])).step .next = (run 1 (overtaken ++ [.poll])).tell .ended ∧
    delivered ((run 1 (overtaken.take 3)).step .poll).log = [.delta "a"] ∧
    ((run 1 (overtaken.take 1)).runFrom [.offer 1 (.delta "e"), .push 0]).log =
      [.sent 1 (.delta "e") true] := by
  obtain ⟨-,-,hcancelled,-⟩ := taken_events_delivered 1 overtaken _ rfl
  obtain ⟨hoffer,hpush,hmore⟩ := hcancelled (by decide)
  obtain ⟨-,-,-,hended,-⟩ := taken_events_delivered 1 (overtaken ++ [.poll, .next]) _ rfl
  obtain ⟨-,-,-,-,hnext,-⟩ := taken_events_delivered 1 (overtaken ++ [.poll]) _ rfl
  obtain ⟨-,-,-,-,-,hlook,-⟩ := taken_events_delivered 1 (overtaken.take 3) _ rfl
  obtain ⟨-,-,-,-,-,-,hroom⟩ := taken_events_delivered 1 (overtaken.take 1) _ rfl
  refine ⟨rfl,hoffer 1 (by decide) _,?_,(hmore _).2,(hended (by decide)).1,
    hnext rfl (.inl (by decide)),hlook .poll rfl,hroom rfl (by decide) 1 (by decide) _⟩
  rw [hpush 0 0 (.delta "c") rfl]
  rfl

end ReasonAct.Channel.Traffic
