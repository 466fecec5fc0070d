import Mathlib.Data.List.Nodup
import BtEmbedded.WiiCustody
/-!
# WiiEvents — the event queue of the Wii backend (backends/wii.c)

What the USB has read reaches the upper layers in the order of its completion and byte for byte, wherever it waits: in the
queue, or in the copy the thread is working off (`Queue.ordered`).  A transfer is missed only when the queue is full, and
the buffers of the two pools cannot fill it: 48 of its places are taken by sent commands then (`sent_of_full`).  While
events wait there is a message, or the thread is on its way (`Queue.awake`).
-/
namespace Bte

namespace Wii

variable {s s' : Wii} {accepts : Chain → Bool}

/-- What is still to be handed over. -/
def waiting (s : Wii) : List WiiEvent := (if s.handling then s.processing.tail else s.processing) ++ s.queue

structure Queue (s : Wii) : Prop where
  typed : ∀ e ∈ s.queue ++ s.processing, (∃ c i, e = ⟨.read c, .pool c i⟩) ∨ ∃ buf, e = ⟨.sent, .upper buf⟩
  room : s.queue.length ≤ wiiMaxEvents
  missed : 0 < s.missedEvents → s.queue.length = wiiMaxEvents
  awake : s.queue ≠ [] → s.mailbox = true ∨ s.received = true
  handled : s.handling = true → s.processing ≠ []
  ordered : s.delivered ++ s.waiting.filterMap s.contents = s.queued

/-- The queue is the same, and so is what its buffers hold. -/
structure Same (s s' : Wii) : Prop where
  queue : s'.queue = s.queue
  processing : s'.processing = s.processing
  missedEvents : s'.missedEvents = s.missedEvents
  mailbox : s'.mailbox = s.mailbox
  received : s'.received = s.received
  handling : s'.handling = s.handling
  delivered : s'.delivered = s.delivered
  queued : s'.queued = s.queued
  bytes : ∀ c i, 0 < s.uses (.pool c i) → (s'.buffers c i).bytes = (s.buffers c i).bytes

theorem Same.refl (s : Wii) : Same s s := ⟨rfl, rfl, rfl, rfl, rfl, rfl, rfl, rfl, fun _ _ _ => rfl⟩

theorem Same.trans {s'' : Wii} (h : Same s s') (h' : Same s' s'') : Same s s'' where
  queue := h'.queue.trans h.queue
  processing := h'.processing.trans h.processing
  missedEvents := h'.missedEvents.trans h.missedEvents
  mailbox := h'.mailbox.trans h.mailbox
  received := h'.received.trans h.received
  handling := h'.handling.trans h.handling
  delivered := h'.delivered.trans h.delivered
  queued := h'.queued.trans h.queued
  bytes c i huses := by
    have huses' : 0 < s'.uses (.pool c i) := by
      unfold uses
      rw [h.queue, h.processing]
      exact huses
    rw [h'.bytes c i huses', h.bytes c i huses]

theorem same_update {c : Chain} {i : Nat} {f : PoolBuffer → PoolBuffer}
    (hf : s.uses (.pool c i) = 0 ∨ ∀ b : PoolBuffer, (f b).bytes = b.bytes) : Same s (s.update c i f) where
  queue := rfl
  processing := rfl
  missedEvents := rfl
  mailbox := rfl
  received := rfl
  handling := rfl
  delivered := rfl
  queued := rfl
  bytes c' i' huses := by
    rw [update_buffers]
    split_ifs with hsame
    · obtain ⟨rfl, rfl⟩ := hsame
      rcases hf with hnone | hbytes
      · omega
      · exact hbytes _
    · rfl

theorem same_read (h : Custody none s) (c : Chain) (accepts : Chain → Bool) : Same s (s.read c accepts) := by
  unfold read
  split
  · split
    · exact ⟨rfl, rfl, rfl, rfl, rfl, rfl, rfl, rfl, fun _ _ _ => rfl⟩
    · rename_i i hi
      obtain ⟨-, -, huses, -, -⟩ := h.unused (alloc_some hi).2
      have hsame := same_update (f := fun b => { b with refCount := 1, size := c.len }) (.inl huses)
      simp only
      split <;> exact ⟨rfl, rfl, rfl, rfl, rfl, rfl, rfl, rfl, hsame.bytes⟩
  · exact .refl s

theorem same_bufferFree (h : Custody none s) (accepts : Chain → Bool) : Same s (s.bufferFree accepts) := by
  unfold bufferFree
  split
  · refine Same.trans ?_ (same_read ?_ .intr accepts)
    · exact ⟨rfl, rfl, rfl, rfl, rfl, rfl, rfl, rfl, fun _ _ _ => rfl⟩
    · exact ⟨h.account, h.exclusive, h.fresh, h.inRange⟩
  · split
    · refine Same.trans ?_ (same_read ?_ .bulk accepts)
      · exact ⟨rfl, rfl, rfl, rfl, rfl, rfl, rfl, rfl, fun _ _ _ => rfl⟩
      · exact ⟨h.account, h.exclusive, h.fresh, h.inRange⟩
    · exact .refl s

theorem same_unref {r : BufferRef} (h : Custody (some r) s) (accepts : Chain → Bool) : Same s (s.unref accepts r) := by
  cases r with
  | upper buf => exact ⟨rfl, rfl, rfl, rfl, rfl, rfl, rfl, rfl, fun _ _ _ => rfl⟩
  | pool c i =>
    have hsame : Same s (s.update c i fun b => { b with refCount := b.refCount - 1 }) := same_update (.inr fun _ => rfl)
    unfold unref
    simp only
    split
    · exact hsame.trans (same_bufferFree h.down accepts)
    · exact hsame

/-! ## The queue -/

theorem contents_congr {e : WiiEvent} (he : (∃ c i, e = ⟨.read c, .pool c i⟩) ∨ ∃ buf, e = ⟨.sent, .upper buf⟩)
    (hb : ∀ c i, e.buffer = .pool c i → (s'.buffers c i).bytes = (s.buffers c i).bytes) :
    s'.contents e = s.contents e := by
  rcases he with ⟨c, i, rfl⟩ | ⟨buf, rfl⟩
  · show some (c, (s'.buffers c i).bytes) = some (c, (s.buffers c i).bytes)
    rw [hb c i rfl]
  · rfl

theorem mem_of_waiting {e : WiiEvent} (he : e ∈ s.waiting) : e ∈ s.queue ++ s.processing := by
  unfold waiting at he
  rcases List.mem_append.1 he with he | he
  · refine List.mem_append_right _ ?_
    split at he
    · exact List.mem_of_mem_tail he
    · exact he
  · exact List.mem_append_left _ he

theorem uses_pos {e : WiiEvent} (he : e ∈ s.queue ++ s.processing) : 0 < s.uses e.buffer :=
  List.count_pos_iff.2 (List.mem_map_of_mem he)

theorem contents_same (hq : Queue s) (hs : Same s s') :
    s.waiting.filterMap s'.contents = s.waiting.filterMap s.contents := by
  refine List.filterMap_congr fun e he => ?_
  have hmem := mem_of_waiting he
  refine contents_congr (hq.typed e hmem) fun c i hbuf => hs.bytes c i ?_
  have hpos := uses_pos hmem
  rwa [hbuf] at hpos

theorem Queue.same (hq : Queue s) (hs : Same s s') : Queue s' where
  typed := by
    rw [hs.queue, hs.processing]
    exact hq.typed
  room := by
    rw [hs.queue]
    exact hq.room
  missed := by
    rw [hs.queue, hs.missedEvents]
    exact hq.missed
  awake := by
    rw [hs.queue, hs.mailbox, hs.received]
    exact hq.awake
  handled := by
    rw [hs.handling, hs.processing]
    exact hq.handled
  ordered := by
    have hwait : s'.waiting = s.waiting := by
      unfold waiting
      rw [hs.handling, hs.processing, hs.queue]
    rw [hwait, contents_same hq hs, hs.delivered, hs.queued]
    exact hq.ordered

theorem queue_queueEvent (hq : Queue s) {e : WiiEvent}
    (he : (∃ c i, e = ⟨.read c, .pool c i⟩) ∨ ∃ buf, e = ⟨.sent, .upper buf⟩) :
    Queue (s.queueEvent e (s.contents e).toList) := by
  unfold queueEvent
  split
  · rename_i hfull
    exact ⟨hq.typed, hq.room, fun _ => Nat.le_antisymm hq.room hfull, hq.awake, hq.handled, hq.ordered⟩
  · rename_i hroom
    refine ⟨?_, ?_, ?_, fun _ => .inl rfl, hq.handled, ?_⟩
    · intro e' he'
      rw [List.append_assoc] at he'
      rcases List.mem_append.1 he' with h | h
      · exact hq.typed e' (List.mem_append_left _ h)
      · rcases List.mem_cons.1 h with rfl | h
        · exact he
        · exact hq.typed e' (List.mem_append_right _ h)
    · show (s.queue ++ [e]).length ≤ wiiMaxEvents
      rw [List.length_append, List.length_singleton]
      omega
    · intro hmissed
      have hlen := hq.missed hmissed
      omega
    · show s.delivered ++
        ((if s.handling then s.processing.tail else s.processing) ++ (s.queue ++ [e])).filterMap s.contents = s.queued ++
            (s.contents e).toList
      have hord := hq.ordered
      unfold waiting at hord
      rw [← List.append_assoc, List.filterMap_append, ← List.append_assoc, hord]
      cases hc : s.contents e <;> simp [hc]

/-- What the USB has read is what the event brings. -/
theorem contents_fill {c : Chain} {i : Nat} {bytes : List UInt8} (hsize : (s.buffers c i).size = c.len)
    (hlen : bytes.length ≤ c.len) :
    (s.update c i fun b => { b with
      size := if bytes.length < b.size then bytes.length else b.size
      data := bytes ++ b.data.drop bytes.length }).contents ⟨.read c, .pool c i⟩ = some (c, bytes) := by
  have hshrunk : (if bytes.length < (s.buffers c i).size then bytes.length else (s.buffers c i).size) = bytes.length := by
    rw [hsize]
    split <;> omega
  unfold contents
  simp only [update_buffers, and_self, if_true, PoolBuffer.bytes, hshrunk, List.take_left]

theorem queue_readCb (h : Custody none s) (hq : Queue s) (c : Chain) {bytes : List UInt8} (hlen : bytes.length ≤ c.len)
    (accepts : Chain → Bool) : Queue (s.readCb c bytes accepts) := by
  unfold readCb
  split
  · exact hq
  · rename_i i rest hread
    obtain ⟨hfrom, hapart⟩ := h.fromReading hread
    have hdone : Same s { s with reading := set s.reading c rest } :=
      ⟨rfl, rfl, rfl, rfl, rfl, rfl, rfl, rfl, fun _ _ _ => rfl⟩
    have hq₁ := hq.same hdone
    simp only
    split
    · have hfill := hfrom.fill (f := fun b => { b with
          size := if bytes.length < b.size then bytes.length else b.size
          data := bytes ++ b.data.drop bytes.length }) hapart.reading fun _ => rfl
      have hsame := same_update (f := fun b => { b with
          size := if bytes.length < b.size then bytes.length else b.size
          data := bytes ++ b.data.drop bytes.length }) (.inl hapart.uses)
      have hqueue := queue_queueEvent (hq₁.same hsame) (.inl ⟨c, i, rfl⟩)
      rw [contents_fill hapart.size hlen] at hqueue
      refine hqueue.same (same_read (custody_queueEvent hfill (fun c' i' heq => ?_) _) c accepts)
      cases heq
      exact ⟨hapart.range, hapart.reading, hapart.uses⟩
    · exact (hq₁.same (same_unref hfrom accepts)).same (same_read (custody_unref hfrom accepts) c accepts)

theorem queue_sendCb (hq : Queue s) (k : Nat) (accepts : Chain → Bool) : Queue (s.sendCb k accepts) := by
  unfold sendCb
  split
  · exact hq
  · rename_i command buf _
    simp only
    split
    · have hqueue := queue_queueEvent (s := { s with writing := s.writing.eraseIdx k })
        (hq.same ⟨rfl, rfl, rfl, rfl, rfl, rfl, rfl, rfl, fun _ _ _ => rfl⟩) (.inr ⟨buf, rfl⟩)
      exact hqueue
    · exact hq.same ⟨rfl, rfl, rfl, rfl, rfl, rfl, rfl, rfl, fun _ _ _ => rfl⟩

theorem queue_send (hq : Queue s) (command : Bool) (buf : Ptr) (accepted : Bool) (accepts : Chain → Bool) :
    Queue (s.send command buf accepted accepts).2 := by
  unfold send
  simp only
  split <;> exact hq.same ⟨rfl, rfl, rfl, rfl, rfl, rfl, rfl, rfl, fun _ _ _ => rfl⟩

theorem queue_handle (hq : Queue s) (hne : s.processing ≠ []) (hidle : s.handling = false) (refs : Nat) :
    Queue (s.handle refs) := by
  have hord := hq.ordered
  unfold waiting at hord
  rw [hidle] at hord
  unfold handle
  split
  · exact absurd ‹_› hne
  · rename_i e rest hp
    have he := hq.typed e (by rw [hp]; simp)
    have hwait : s.delivered ++ (e :: rest ++ s.queue).filterMap s.contents = s.queued := by
      rw [← hp]
      exact hord
    rcases he with ⟨c, i, rfl⟩ | ⟨buf, rfl⟩
    · have hbytes : ∀ c' j, ((s.update c i fun b => { b with refCount := b.refCount + refs }).buffers c' j).bytes =
          (s.buffers c' j).bytes := by
        intro c' j
        rw [update_buffers]
        split_ifs with hsame
        · obtain ⟨rfl, rfl⟩ := hsame
          rfl
        · rfl
      refine ⟨hq.typed, hq.room, hq.missed, hq.awake, fun _ => ?_, ?_⟩
      · show s.processing ≠ []
        exact hne
      · show (s.delivered ++ [(c, (s.buffers c i).bytes)]) ++ (s.processing.tail ++ s.queue).filterMap
          (s.update c i fun b => { b with refCount := b.refCount + refs }).contents = s.queued
        have hsame : (s.processing.tail ++ s.queue).filterMap
            (s.update c i fun b => { b with refCount := b.refCount + refs }).contents =
            (rest ++ s.queue).filterMap s.contents := by
          rw [hp]
          refine List.filterMap_congr fun e' he' => contents_congr (hq.typed e' ?_) fun c' j _ => hbytes c' j
          rw [hp]
          rcases List.mem_append.1 he' with h | h
          · exact List.mem_append_right _ (List.mem_cons_of_mem _ h)
          · exact List.mem_append_left _ h
        rw [hsame, List.append_assoc]
        exact hwait
    · refine ⟨hq.typed, hq.room, hq.missed, hq.awake, fun _ => hne, ?_⟩
      show s.delivered ++ (s.processing.tail ++ s.queue).filterMap s.contents = s.queued
      rw [hp]
      exact hwait

theorem queue_release (h : Custody none s) (hq : Queue s) (hbusy : s.handling = true) (accepts : Chain → Bool) :
    Queue (s.release accepts) := by
  unfold release
  split
  · exact hq
  · rename_i e rest hp
    have hord := hq.ordered
    unfold waiting at hord
    rw [hbusy, hp] at hord
    refine Queue.same ?_ (same_unref (h.fromProcessing hp) accepts)
    refine ⟨fun e' he' => hq.typed e' ?_, hq.room, hq.missed, hq.awake, fun hb => Bool.noConfusion hb, hord⟩
    rw [hp]
    rcases List.mem_append.1 he' with h' | h'
    · exact List.mem_append_left _ h'
    · exact List.mem_append_right _ (List.mem_cons_of_mem _ h')

theorem queue_step (h : Custody none s) (hq : Queue s) {o : WiiOp × (Chain → Bool)} (ho : s.Possible o) :
    Queue (s.step o) := by
  obtain ⟨o, accepts⟩ := o
  have hframe : ∀ s', Same s s' → Queue s' := fun s' hs => hq.same hs
  cases o with
  | readCb c bytes => exact queue_readCb h hq c ho.2 accepts
  | sendCb k => exact queue_sendCb hq k accepts
  | sendCommand buf contiguous accepted =>
    show Queue (s.hciSendCommand buf contiguous accepted accepts).2
    unfold hciSendCommand
    split
    · split
      · exact queue_send hq true buf accepted accepts
      · exact hq
    · exact hq
  | sendData buf accepted =>
    show Queue (s.hciSendData buf accepted accepts).2
    unfold hciSendData
    split
    · exact queue_send hq false buf accepted accepts
    · exact hq
  | receive =>
    show Queue s.receive
    unfold receive
    split
    · exact ⟨hq.typed, hq.room, hq.missed, fun _ => .inr rfl, hq.handled, hq.ordered⟩
    · exact hq
  | copyQueue =>
    have hp : s.processing = [] := ho
    have hidle : s.handling = false := by
      rcases hb : s.handling with _ | _
      · rfl
      · exact absurd hp (hq.handled hb)
    have hord := hq.ordered
    unfold waiting at hord
    rw [hidle, hp] at hord
    refine ⟨fun e he => hq.typed e (List.mem_append_left _ he), Nat.zero_le _, fun hm => absurd hm (Nat.lt_irrefl 0),
      fun hne => absurd rfl hne, fun hb => ?_, ?_⟩
    · change s.handling = true at hb
      rw [hidle] at hb
      exact Bool.noConfusion hb
    · show s.delivered ++ ((if s.handling then s.queue.tail else s.queue) ++ []).filterMap s.contents = s.queued
      rw [hidle, List.append_nil]
      exact hord
  | handle refs => exact queue_handle hq ho.1 ho.2 refs
  | release => exact queue_release h hq ho accepts
  | giveBack c i =>
    show Queue (s.giveBack c i accepts)
    unfold giveBack
    refine Queue.same (hframe _ ?_) (same_unref (h.fromKept ho) accepts)
    exact ⟨rfl, rfl, rfl, rfl, rfl, rfl, rfl, rfl, fun _ _ _ => rfl⟩
  | takeRef c i =>
    have hsame : Same s (s.update c i fun b => { b with refCount := b.refCount + 1 }) := same_update (.inr fun _ => rfl)
    exact hframe _ ⟨rfl, rfl, rfl, rfl, rfl, rfl, rfl, rfl, hsame.bytes⟩
  | deinit => exact hframe _ ⟨rfl, rfl, rfl, rfl, rfl, rfl, rfl, rfl, fun _ _ _ => rfl⟩

/-! ## Missed events -/

/-- The sent commands in the queue. -/
def sentWaiting (s : Wii) : Nat := (s.queue.filter fun e => e.type = .sent).length

/-- The buffers of the two pools. -/
def pools : List BufferRef :=
  (List.range wiiBufferIntrCount).map (.pool .intr) ++ (List.range wiiBufferDataCount).map (.pool .bulk)

theorem mem_pools {c : Chain} {i : Nat} (h : i < c.count) : BufferRef.pool c i ∈ pools := by
  cases c with
  | intr => exact List.mem_append_left _ (List.mem_map_of_mem (List.mem_range.2 h))
  | bulk => exact List.mem_append_right _ (List.mem_map_of_mem (List.mem_range.2 h))

/-- The events of reads have buffers of their own. -/
theorem reads_le (h : Custody none s) (hq : Queue s) : (s.queue.filter fun e => ¬ e.type = .sent).length ≤ 80 := by
  have hread : ∀ e ∈ s.queue.filter fun e => ¬ e.type = .sent, ∃ c i, e.buffer = .pool c i ∧ 0 < s.uses (.pool c i) := by
    intro e he
    obtain ⟨hmem, htype⟩ := List.mem_filter.1 he
    have hmem' := List.mem_append_left s.processing hmem
    rcases hq.typed e hmem' with ⟨c, i, rfl⟩ | ⟨buf, rfl⟩
    · exact ⟨c, i, rfl, uses_pos hmem'⟩
    · exact absurd htype (by simp)
  have hnodup : ((s.queue.filter fun e => ¬ e.type = .sent).map (·.buffer)).Nodup := by
    refine List.nodup_iff_count_le_one.2 fun r => ?_
    rcases Nat.eq_zero_or_pos (((s.queue.filter fun e => ¬ e.type = .sent).map (·.buffer)).count r) with h0 | hpos
    · omega
    · obtain ⟨e, he, rfl⟩ := List.mem_map.1 (List.count_pos_iff.1 hpos)
      obtain ⟨c, i, hbuf, -⟩ := hread e he
      have hone := h.exclusive c i
      have hsub : ((s.queue.filter fun e => ¬ e.type = .sent).map (·.buffer)).Sublist
          ((s.queue ++ s.processing).map (·.buffer)) :=
        ((List.filter_sublist).trans (List.sublist_append_left _ _)).map _
      have hle := hsub.count_le e.buffer
      rw [hbuf] at hle ⊢
      unfold uses at hone
      omega
  have hsubset : ((s.queue.filter fun e => ¬ e.type = .sent).map (·.buffer)) ⊆ pools := by
    intro r hr
    obtain ⟨e, he, rfl⟩ := List.mem_map.1 hr
    obtain ⟨c, i, hbuf, hpos⟩ := hread e he
    rw [hbuf]
    exact mem_pools (h.inRange c i hpos)
  have hle := (List.subperm_of_subset hnodup hsubset).length_le
  rw [List.length_map] at hle
  exact hle

theorem sent_of_full (h : Custody none s) (hq : Queue s) (hfull : s.queue.length = wiiMaxEvents) :
    48 ≤ s.sentWaiting := by
  have hreads := reads_le h hq
  have hsplit := List.length_eq_length_filter_add (l := s.queue) fun e => e.type = .sent
  unfold sentWaiting
  simp only [decide_not] at hreads
  have h128 : wiiMaxEvents = 128 := rfl
  omega

/-! ## Runs -/

/-- The transfer that a step completes. -/
def arrived (o : WiiOp × (Chain → Bool)) : Option (Chain × List UInt8) :=
  match o.1 with
  | .readCb c bytes => if bytes ≠ [] then some (c, bytes) else none
  | _ => none

theorem queueEvent_queued (s : Wii) (e : WiiEvent) (got : List (Chain × List UInt8)) :
    (s.queueEvent e got).queued = s.queued ++ if s.queue.length < wiiMaxEvents then got else [] := by
  unfold queueEvent
  split
  · rw [if_neg (by omega), List.append_nil]
  · rw [if_pos (by omega)]

theorem readCb_queued (h : Custody none s) {c : Chain} (hc : s.reading c ≠ []) (bytes : List UInt8)
    (accepts : Chain → Bool) : (s.readCb c bytes accepts).queued =
      s.queued ++ if s.queue.length < wiiMaxEvents then (if bytes ≠ [] then [(c, bytes)] else []) else [] := by
  unfold readCb
  split
  · exact absurd ‹_› hc
  · rename_i i rest hread
    obtain ⟨hfrom, hapart⟩ := h.fromReading hread
    simp only
    split
    · have hfill := hfrom.fill (f := fun b => { b with
          size := if bytes.length < b.size then bytes.length else b.size
          data := bytes ++ b.data.drop bytes.length }) hapart.reading fun _ => rfl
      have hcustody := custody_queueEvent (e := ⟨.read c, .pool c i⟩) hfill (fun c' i' heq => by
        cases heq
        exact ⟨hapart.range, hapart.reading, hapart.uses⟩) [(c, bytes)]
      rw [(same_read hcustody c accepts).queued, queueEvent_queued]
      rfl
    · rw [(same_read (custody_unref hfrom accepts) c accepts).queued, (same_unref hfrom accepts).queued]
      split <;> exact (List.append_nil _).symm

theorem queued_step (h : Custody none s) {o : WiiOp × (Chain → Bool)} (ho : s.Possible o) :
    (s.step o).queued = s.queued ++ if s.queue.length < wiiMaxEvents then (arrived o).toList else [] := by
  have hno : ∀ s' : Wii, s'.queued = s.queued →
      s'.queued = s.queued ++
        if s.queue.length < wiiMaxEvents then (none : Option (Chain × List UInt8)).toList else [] := by
    intro s' hs
    rw [hs]
    split <;> exact (List.append_nil _).symm
  obtain ⟨o, accepts⟩ := o
  cases o with
  | readCb c bytes =>
    refine (readCb_queued h ho.1 bytes accepts).trans ?_
    unfold arrived
    simp only
    split_ifs <;> rfl
  | sendCb k =>
    refine hno _ ?_
    show (s.sendCb k accepts).queued = s.queued
    unfold sendCb
    split
    · rfl
    · simp only
      split
      · rw [queueEvent_queued]
        split <;> exact List.append_nil _
      · rfl
  | sendCommand buf contiguous accepted =>
    refine hno _ ?_
    show (s.hciSendCommand buf contiguous accepted accepts).2.queued = s.queued
    unfold hciSendCommand send
    simp only
    split_ifs <;> rfl
  | sendData buf accepted =>
    refine hno _ ?_
    show (s.hciSendData buf accepted accepts).2.queued = s.queued
    unfold hciSendData send
    simp only
    split_ifs <;> rfl
  | receive =>
    refine hno _ ?_
    show s.receive.queued = s.queued
    unfold receive
    split <;> rfl
  | copyQueue => exact hno _ rfl
  | handle refs =>
    refine hno _ ?_
    show (s.handle refs).queued = s.queued
    unfold handle
    split
    · rfl
    · split <;> rfl
  | release =>
    refine hno _ ?_
    show (s.release accepts).queued = s.queued
    unfold release
    split
    · rfl
    · rename_i e rest hp
      exact (same_unref (h.fromProcessing hp) accepts).queued
  | giveBack c i => exact hno _ (same_unref (h.fromKept ho) accepts).queued
  | takeRef c i => exact hno _ rfl
  | deinit => exact hno _ rfl

theorem queued_sublist : ∀ (ops : List (WiiOp × (Chain → Bool))) {s : Wii}, Custody none s →
    Sys.Admissible step Possible s ops →
    ∃ got, (Sys.run step s ops).queued = s.queued ++ got ∧ got.Sublist (ops.filterMap arrived)
  | [], s, _, _ => ⟨[], (List.append_nil _).symm, .refl _⟩
  | o :: ops, s, h, ho => by
    obtain ⟨got, hgot, hsub⟩ := queued_sublist ops (custody_step h ho.1) ho.2
    refine ⟨(if s.queue.length < wiiMaxEvents then (arrived o).toList else []) ++ got, ?_, ?_⟩
    · rw [Sys.run_cons, hgot, queued_step h ho.1, List.append_assoc]
    · have hcons : (o :: ops).filterMap arrived = (arrived o).toList ++ ops.filterMap arrived := by
        rw [List.filterMap_cons]
        cases arrived o <;> rfl
      rw [hcons]
      refine List.Sublist.append ?_ hsub
      split
      · exact .refl _
      · exact List.nil_sublist _

/-- Nothing is missed where the queue is not full. -/
theorem queued_all : ∀ (ops : List (WiiOp × (Chain → Bool))) {s : Wii}, Custody none s → Queue s →
    Sys.Admissible step Possible s ops → Sys.Admissible step (fun s _ => s.sentWaiting < 48) s ops →
    (Sys.run step s ops).queued = s.queued ++ ops.filterMap arrived
  | [], _, _, _, _, _ => (List.append_nil _).symm
  | o :: ops, s, h, hq, ho, hs => by
    have hroom : s.queue.length < wiiMaxEvents := by
      refine Nat.lt_of_le_of_ne hq.room fun hfull => ?_
      have hsent := sent_of_full h hq hfull
      have hfew := hs.1
      omega
    have hcons : (o :: ops).filterMap arrived = (arrived o).toList ++ ops.filterMap arrived := by
      rw [List.filterMap_cons]
      cases arrived o <;> rfl
    rw [Sys.run_cons, queued_all ops (custody_step h ho.1) (queue_step h hq ho.1) ho.2 hs.2, queued_step h ho.1,
      if_pos hroom, hcons, List.append_assoc]

theorem begun_queue (accepts : Chain → Bool) : Queue (begun accepts) := by
  have hstart : Queue { start with fd := true, mailbox := false } := by
    exact ⟨fun _ he => (nomatch he), Nat.zero_le _, fun hm => absurd hm (Nat.lt_irrefl 0), fun hne => absurd rfl hne,
      fun hb => Bool.noConfusion hb, rfl⟩
  have hc : Custody none { start with fd := true, mailbox := false } :=
    ⟨custody_start.account, custody_start.exclusive, custody_start.fresh, custody_start.inRange⟩
  exact (hstart.same (same_read hc .intr accepts)).same (same_read (custody_read hc .intr accepts) .bulk accepts)

theorem queue_run {accepts : Chain → Bool} {ops : List (WiiOp × (Chain → Bool))} (h : Runs accepts ops) :
    Queue (Sys.run step (begun accepts) ops) := by
  have hstep : ∀ s o, Custody none s ∧ Queue s → Possible s o → Custody none (step s o) ∧ Queue (step s o) :=
    fun _ _ hs ho => ⟨custody_step hs.1 ho, queue_step hs.1 hs.2 ho⟩
  exact (Sys.inv_run hstep ops _ ⟨begun_custody accepts, begun_queue accepts⟩ h).2

theorem begun_queued (accepts : Chain → Bool) : (begun accepts).queued = [] := by
  have hc : Custody none { start with fd := true, mailbox := false } :=
    ⟨custody_start.account, custody_start.exclusive, custody_start.fresh, custody_start.inRange⟩
  exact (same_read (custody_read hc .intr accepts) .bulk accepts).queued.trans (same_read hc .intr accepts).queued

/-- **Events arrive in order, byte for byte.**  In every run in which each function runs to its end: what the upper layers
were given and what still waits is, in this order, what was queued; the transfers that were queued are those that were
completed, in their order, without those that were missed; an event is missed only while 48 sent commands wait in the
queue, and none is missed where at every step there are fewer; and while the queue is not empty there is a message, or the
thread that received it is about to copy the queue. -/
theorem wii_in_order (accepts : Chain → Bool) (ops : List (WiiOp × (Chain → Bool))) (h : Runs accepts ops) :
    let s := Sys.run step (begun accepts) ops
    s.delivered ++ s.waiting.filterMap s.contents = s.queued ∧
    s.queued.Sublist (ops.filterMap arrived) ∧
    (Sys.Admissible step (fun s _ => s.sentWaiting < 48) (begun accepts) ops → s.queued = ops.filterMap arrived) ∧
    (0 < s.missedEvents → 48 ≤ s.sentWaiting) ∧
    (s.queue ≠ [] → s.mailbox = true ∨ s.received = true) := by
  have hqueue := queue_run h
  have hcustody := custody_run h
  obtain ⟨got, hgot, hsub⟩ := queued_sublist ops (begun_custody accepts) h
  rw [begun_queued, List.nil_append] at hgot
  refine ⟨hqueue.ordered, ?_, fun hfew => ?_, fun hm => sent_of_full hcustody hqueue (hqueue.missed hm), hqueue.awake⟩
  · rw [hgot]
    exact hsub
  · have hall := queued_all ops (begun_custody accepts) (begun_queue accepts) h hfew
    rwa [begun_queued, List.nil_append] at hall

theorem wii_in_order_shortRun :
    let s := Sys.run step (begun always) shortRun
    s.delivered ++ s.waiting.filterMap s.contents = s.queued ∧
    s.queued.Sublist (shortRun.filterMap arrived) ∧
    (Sys.Admissible step (fun s _ => s.sentWaiting < 48) (begun always) shortRun →
      s.queued = shortRun.filterMap arrived) ∧
    (0 < s.missedEvents → 48 ≤ s.sentWaiting) ∧
    (s.queue ≠ [] → s.mailbox = true ∨ s.received = true) := by
  have hrun : Runs always shortRun := by
    unfold Runs
    decide
  exact wii_in_order always shortRun hrun

end Wii

end Bte
