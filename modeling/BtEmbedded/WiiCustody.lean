import Mathlib.Data.List.Perm.Basic
import BtEmbedded.WiiBackend
/-!
# WiiCustody — the buffers and the chains of the Wii backend (backends/wii.c)

Every reference on a buffer is somebody's (`Custody`), so a buffer is taken from its pool only when nobody has it, and
the USB reads into a buffer that nobody else has.  Each chain has one read outstanding, or is stopped, or the USB has
refused it a read (`Chains`).  The interrupts' chain is stopped only while all its buffers are in use; the other one may
stay stopped with free buffers, since `wii_buffer_free` starts one chain at a time.
-/
namespace Bte

namespace Wii

/-! ## What the functions change -/

variable {s : Wii} {accepts : Chain → Bool}

theorem update_buffers (s : Wii) (c c' : Chain) (i i' : Nat) (f : PoolBuffer → PoolBuffer) :
    (s.update c i f).buffers c' i' = if c' = c ∧ i' = i then f (s.buffers c i) else s.buffers c' i' := by
  by_cases hc : c' = c
  · subst hc
    by_cases hi : i' = i
    · subst hi
      simp [update]
    · simp [update, hi]
  · simp [update, hc]

theorem alloc_some {c : Chain} {i : Nat} (h : s.alloc c = some i) : i < c.count ∧ (s.buffers c i).refCount = 0 :=
  ⟨List.mem_range.1 (List.mem_of_find?_eq_some h), by simpa using List.find?_some h⟩

theorem alloc_none {c : Chain} (h : s.alloc c = none) : ∀ i < c.count, (s.buffers c i).refCount ≠ 0 := fun i hi => by
  simpa using List.find?_eq_none.1 h i (List.mem_range.2 hi)

/-! ## Custody -/

/-- How often an event of the queue or of the copy refers to a buffer. -/
def uses (s : Wii) (r : BufferRef) : Nat := ((s.queue ++ s.processing).map (·.buffer)).count r

/-- The references of the USB and of the upper layers. -/
def holders (s : Wii) : BufferRef → Nat
  | .pool c i => (s.reading c).count i + s.kept c i
  | .upper buf => (s.writing.map Prod.snd).count buf

/-- The reference count of a buffer; of one of the upper layers, the backend's part of it. -/
def refCount (s : Wii) : BufferRef → Nat
  | .pool c i => (s.buffers c i).refCount
  | .upper buf => s.refs buf

/-- Every reference is somebody's.  `hand` is the one that the running function has. -/
structure Custody (hand : Option BufferRef) (s : Wii) : Prop where
  account : ∀ r, s.refCount r = s.holders r + s.uses r + hand.toList.count r + s.lost r
  exclusive : ∀ c i, (s.reading c).count i + s.uses (.pool c i) ≤ 1
  fresh : ∀ c, ∀ i ∈ s.reading c, i < c.count ∧ s.kept c i = 0 ∧ s.lost (.pool c i) = 0 ∧ (s.buffers c i).size = c.len
  inRange : ∀ c i, 0 < s.uses (.pool c i) → i < c.count

theorem custody_start : Custody none start where
  account
    | .pool _ _ => rfl
    | .upper _ => rfl
  exclusive _ _ := Nat.zero_le 1
  fresh _ _ h := nomatch h
  inRange _ _ h := absurd h (Nat.lt_irrefl 0)

/-- A free buffer is nobody's. -/
theorem Custody.unused {hand : Option BufferRef} (h : Custody hand s) {c : Chain} {i : Nat}
    (h0 : (s.buffers c i).refCount = 0) : (s.reading c).count i = 0 ∧ s.kept c i = 0 ∧ s.uses (.pool c i) = 0 ∧
      hand.toList.count (.pool c i) = 0 ∧ s.lost (.pool c i) = 0 := by
  have hacc := h.account (.pool c i)
  simp only [refCount, holders, h0] at hacc
  omega

/-- A buffer without a reader, an event or a keeper. -/
structure Apart (s : Wii) (c : Chain) (i : Nat) : Prop where
  range : i < c.count
  reading : (s.reading c).count i = 0
  uses : s.uses (.pool c i) = 0
  kept : s.kept c i = 0
  lost : s.lost (.pool c i) = 0
  size : (s.buffers c i).size = c.len

theorem count_set_snoc (f : Chain → List Nat) (c c' : Chain) (i i' : Nat) :
    (set f c (f c ++ [i]) c').count i' = (f c').count i' + if c' = c ∧ i' = i then 1 else 0 := by
  by_cases hc : c' = c
  · subst hc
    by_cases hi : i' = i
    · subst hi
      simp
    · simp [hi, Ne.symm hi]
  · simp [hc]

theorem mem_set_snoc {f : Chain → List Nat} {c c' : Chain} {i j : Nat} (h : j ∈ set f c (f c ++ [i]) c') :
    j ∈ f c' ∨ (c' = c ∧ j = i) := by
  by_cases hc : c' = c
  · subst hc
    rw [set_self] at h
    rcases List.mem_append.1 h with h | h
    · exact .inl h
    · exact .inr ⟨rfl, List.mem_singleton.1 h⟩
  · rw [set_ne f hc] at h
    exact .inl h

theorem count_toList (r r' : BufferRef) : (some r).toList.count r' = if r' = r then 1 else 0 := by
  by_cases h : r' = r
  · simp [h]
  · simp [h, Ne.symm h]

theorem pool_inj {c c' : Chain} {i i' : Nat} : BufferRef.pool c' i' = .pool c i ↔ c' = c ∧ i' = i := by simp

/-- A free buffer is taken. -/
theorem Custody.take (h : Custody none s) {c : Chain} {i : Nat} (hi : s.alloc c = some i) :
    Custody (some (.pool c i)) (s.update c i fun b => { b with refCount := 1, size := c.len }) ∧
      Apart (s.update c i fun b => { b with refCount := 1, size := c.len }) c i := by
  obtain ⟨hrange, h0⟩ := alloc_some hi
  obtain ⟨hread, hkept, huses, -, hlost⟩ := h.unused h0
  refine ⟨⟨?_, h.exclusive, ?_, h.inRange⟩, hrange, hread, huses, hkept, hlost, ?_⟩
  · rintro (⟨c', i'⟩ | buf)
    · have hacc := h.account (.pool c' i')
      simp only [refCount, holders, update_buffers, count_toList, pool_inj] at hacc ⊢
      split_ifs with hsame
      · obtain ⟨rfl, rfl⟩ := hsame
        show 1 = (s.reading c').count i' + s.kept c' i' + s.uses (.pool c' i') + 1 + s.lost (.pool c' i')
        omega
      · exact hacc
    · exact h.account (.upper buf)
  · intro c' j hj
    obtain ⟨hr, hk, hl, hsize⟩ := h.fresh c' j hj
    refine ⟨hr, hk, hl, ?_⟩
    rw [update_buffers]
    split_ifs with hsame
    · exact congrArg Chain.len hsame.1.symm
    · exact hsize
  · rw [update_buffers, if_pos ⟨rfl, rfl⟩]

/-- The USB is given a buffer to read into. -/
theorem Custody.toReading {c : Chain} {i : Nat} (h : Custody (some (.pool c i)) s) (hi : Apart s c i) :
    Custody none { s with reading := set s.reading c (s.reading c ++ [i]) } := by
  refine ⟨?_, ?_, ?_, h.inRange⟩
  · rintro (⟨c', i'⟩ | buf)
    · have hacc := h.account (.pool c' i')
      simp only [refCount, holders, count_set_snoc, count_toList, pool_inj] at hacc ⊢
      show _ = _ + s.uses (.pool c' i') + 0 + s.lost (.pool c' i')
      omega
    · exact h.account (.upper buf)
  · intro c' i'
    have hex := h.exclusive c' i'
    show (set s.reading c (s.reading c ++ [i]) c').count i' + s.uses (.pool c' i') ≤ 1
    rw [count_set_snoc]
    split_ifs with hsame
    · obtain ⟨rfl, rfl⟩ := hsame
      have hread := hi.reading
      have huses := hi.uses
      omega
    · exact hex
  · intro c' j hj
    rcases mem_set_snoc hj with hj | ⟨rfl, rfl⟩
    · exact h.fresh c' j hj
    · exact ⟨hi.range, hi.kept, hi.lost, hi.size⟩

/-- A reference that nobody will give back. -/
theorem Custody.lose {r : BufferRef} (h : Custody (some r) s) (hr : ∀ c i, r = .pool c i → (s.reading c).count i = 0) :
    Custody none { s with lost := set s.lost r (s.lost r + 1) } := by
  refine ⟨?_, h.exclusive, ?_, h.inRange⟩
  · intro r'
    have hacc := h.account r'
    rw [count_toList] at hacc
    show s.refCount r' = s.holders r' + s.uses r' + 0 + set s.lost r (s.lost r + 1) r'
    by_cases hsame : r' = r
    · subst hsame
      rw [if_pos rfl] at hacc
      rw [set_self]
      omega
    · rw [if_neg hsame] at hacc
      rw [set_ne _ hsame]
      exact hacc
  · intro c j hj
    obtain ⟨hrange, hk, hl, hsize⟩ := h.fresh c j hj
    refine ⟨hrange, hk, ?_, hsize⟩
    have hne : BufferRef.pool c j ≠ r := fun heq => List.count_eq_zero.1 (hr c j heq.symm) hj
    exact (set_ne s.lost hne _).trans hl

theorem custody_read (h : Custody none s) (c : Chain) (accepts : Chain → Bool) : Custody none (s.read c accepts) := by
  unfold read
  split
  · split
    · exact ⟨h.account, h.exclusive, h.fresh, h.inRange⟩
    · rename_i i hi
      obtain ⟨htake, hapart⟩ := h.take hi
      simp only
      split
      · exact htake.toReading hapart
      · have hlose := htake.lose fun c' i' heq => by
          cases heq
          exact hapart.reading
        exact ⟨hlose.account, hlose.exclusive, hlose.fresh, hlose.inRange⟩
  · exact h

theorem custody_bufferFree (h : Custody none s) (accepts : Chain → Bool) : Custody none (s.bufferFree accepts) := by
  unfold bufferFree
  split
  · refine custody_read ?_ .intr accepts
    exact ⟨h.account, h.exclusive, h.fresh, h.inRange⟩
  · split
    · refine custody_read ?_ .bulk accepts
      exact ⟨h.account, h.exclusive, h.fresh, h.inRange⟩
    · exact h

/-- A reference is given back, before anything is freed. -/
theorem Custody.down {c : Chain} {i : Nat} (h : Custody (some (.pool c i)) s) :
    Custody none (s.update c i fun b => { b with refCount := b.refCount - 1 }) := by
  refine ⟨?_, h.exclusive, ?_, h.inRange⟩
  · rintro (⟨c', i'⟩ | buf)
    · have hacc := h.account (.pool c' i')
      simp only [refCount, holders, update_buffers, count_toList, pool_inj] at hacc ⊢
      split_ifs at hacc ⊢ with hsame
      · obtain ⟨rfl, rfl⟩ := hsame
        show (s.buffers c' i').refCount - 1 = (s.reading c').count i' + s.kept c' i' + s.uses (.pool c' i') + 0 +
          s.lost (.pool c' i')
        omega
      · exact hacc
    · have hacc := h.account (.upper buf)
      rw [count_toList] at hacc
      exact hacc
  · intro c' j hj
    obtain ⟨hr, hk, hl, hsize⟩ := h.fresh c' j hj
    refine ⟨hr, hk, hl, ?_⟩
    rw [update_buffers]
    split_ifs with hsame
    · obtain ⟨rfl, rfl⟩ := hsame
      exact hsize
    · exact hsize

theorem custody_unref {r : BufferRef} (h : Custody (some r) s) (accepts : Chain → Bool) :
    Custody none (s.unref accepts r) := by
  cases r with
  | pool c i =>
    unfold unref
    simp only
    split
    · exact custody_bufferFree h.down accepts
    · exact h.down
  | upper buf =>
    refine ⟨?_, h.exclusive, h.fresh, h.inRange⟩
    rintro (⟨c', i'⟩ | buf')
    · have hacc := h.account (.pool c' i')
      rw [count_toList] at hacc
      exact hacc
    · have hacc := h.account (.upper buf')
      simp only [refCount, count_toList, BufferRef.upper.injEq] at hacc
      show set s.refs buf (s.refs buf - 1) buf' =
        s.holders (.upper buf') + s.uses (.upper buf') + 0 + s.lost (.upper buf')
      by_cases hsame : buf' = buf
      · subst hsame
        rw [set_self]
        simp only [if_true] at hacc
        omega
      · rw [set_ne _ hsame]
        rw [if_neg hsame] at hacc
        exact hacc

theorem count_cons_buffer (e : WiiEvent) (l : List WiiEvent) (r : BufferRef) :
    ((e :: l).map (·.buffer)).count r = (l.map (·.buffer)).count r + if r = e.buffer then 1 else 0 := by
  rw [List.map_cons, List.count_cons]
  by_cases h : r = e.buffer
  · simp [h]
  · simp [h, Ne.symm h]

theorem uses_cons {e : WiiEvent} {rest : List WiiEvent} (h : s.processing = e :: rest) (r : BufferRef) :
    s.uses r = ((s.queue ++ rest).map (·.buffer)).count r + if r = e.buffer then 1 else 0 := by
  rw [uses, h, List.map_append, List.count_append, count_cons_buffer, List.map_append, List.count_append, Nat.add_assoc]

theorem uses_snoc (s : Wii) (e : WiiEvent) (r : BufferRef) :
    (((s.queue ++ [e]) ++ s.processing).map (·.buffer)).count r = s.uses r + if r = e.buffer then 1 else 0 := by
  rw [uses, List.append_assoc, List.singleton_append, List.map_append, List.count_append, count_cons_buffer,
    List.map_append, List.count_append, Nat.add_assoc]

/-- An event of a buffer that no other event has. -/
theorem custody_queueEvent {e : WiiEvent} (h : Custody (some e.buffer) s)
    (hfree : ∀ c i, e.buffer = .pool c i → i < c.count ∧ (s.reading c).count i = 0 ∧ s.uses (.pool c i) = 0)
    (got : List (Chain × List UInt8)) : Custody none (s.queueEvent e got) := by
  unfold queueEvent
  split
  · have hlose := h.lose fun c i heq => (hfree c i heq).2.1
    exact ⟨hlose.account, hlose.exclusive, hlose.fresh, hlose.inRange⟩
  · refine ⟨?_, ?_, h.fresh, ?_⟩
    · intro r
      have hacc := h.account r
      rw [count_toList] at hacc
      have huses := uses_snoc s e r
      show s.refCount r = s.holders r + (((s.queue ++ [e]) ++ s.processing).map (·.buffer)).count r + 0 + s.lost r
      omega
    · intro c i
      have hex := h.exclusive c i
      have huses := uses_snoc s e (.pool c i)
      show (s.reading c).count i + (((s.queue ++ [e]) ++ s.processing).map (·.buffer)).count (.pool c i) ≤ 1
      rw [huses]
      split_ifs with hsame
      · obtain ⟨-, hread, hnone⟩ := hfree c i hsame.symm
        omega
      · exact hex
    · intro c i hpos
      have huses := uses_snoc s e (.pool c i)
      change 0 < (((s.queue ++ [e]) ++ s.processing).map (·.buffer)).count (.pool c i) at hpos
      rw [huses] at hpos
      split_ifs at hpos with hsame
      · exact (hfree c i hsame.symm).1
      · exact h.inRange c i hpos

/-- The USB has done with the first buffer of a chain. -/
theorem Custody.fromReading (h : Custody none s) {c : Chain} {i : Nat} {rest : List Nat}
    (hread : s.reading c = i :: rest) : Custody (some (.pool c i)) { s with reading := set s.reading c rest } ∧
      Apart { s with reading := set s.reading c rest } c i := by
  have hcount : ∀ c' j,
      (set s.reading c rest c').count j + (if c' = c ∧ j = i then 1 else 0) = (s.reading c').count j := by
    intro c' j
    by_cases hc : c' = c
    · subst hc
      rw [set_self, hread, List.count_cons]
      by_cases hj : j = i
      · simp [hj]
      · simp [hj, Ne.symm hj]
    · simp [hc]
  have hmem : i ∈ s.reading c := by
    rw [hread]
    exact List.mem_cons_self
  obtain ⟨hrange, hkept, hlost, hsize⟩ := h.fresh c i hmem
  have hone := h.exclusive c i
  have hleft := hcount c i
  rw [if_pos ⟨rfl, rfl⟩] at hleft
  refine ⟨⟨?_, ?_, ?_, h.inRange⟩, hrange, ?_, ?_, hkept, hlost, hsize⟩
  · rintro (⟨c', i'⟩ | buf)
    · have hacc := h.account (.pool c' i')
      have hc := hcount c' i'
      simp only [refCount, holders, count_toList, pool_inj] at hacc ⊢
      show _ = _ + s.uses (.pool c' i') + _ + s.lost (.pool c' i')
      simp only [Option.toList_none, List.count_nil] at hacc
      omega
    · have hacc := h.account (.upper buf)
      rw [count_toList]
      exact hacc
  · intro c' i'
    have hex := h.exclusive c' i'
    have hc := hcount c' i'
    show (set s.reading c rest c').count i' + s.uses (.pool c' i') ≤ 1
    omega
  · intro c' j hj
    refine h.fresh c' j ?_
    have hc := hcount c' j
    have hpos : 0 < (set s.reading c rest c').count j := List.count_pos_iff.2 hj
    exact List.count_pos_iff.1 (by omega)
  · show (set s.reading c rest c).count i = 0
    omega
  · show s.uses (.pool c i) = 0
    omega

/-- A buffer that is nobody's but the running function's is written. -/
theorem Custody.fill {c : Chain} {i : Nat} {hand : Option BufferRef} (h : Custody hand s)
    (hread : (s.reading c).count i = 0) {f : PoolBuffer → PoolBuffer} (hf : ∀ b, (f b).refCount = b.refCount) :
        Custody hand (s.update c i f) := by
  refine ⟨?_, h.exclusive, ?_, h.inRange⟩
  · rintro (⟨c', i'⟩ | buf)
    · have hacc := h.account (.pool c' i')
      show ((s.update c i f).buffers c' i').refCount = _
      rw [update_buffers]
      split_ifs with hsame
      · obtain ⟨rfl, rfl⟩ := hsame
        rw [hf]
        exact hacc
      · exact hacc
    · exact h.account (.upper buf)
  · intro c' j hj
    obtain ⟨hrange, hk, hl, hsize⟩ := h.fresh c' j hj
    refine ⟨hrange, hk, hl, ?_⟩
    rw [update_buffers, if_neg]
    · exact hsize
    · rintro ⟨rfl, rfl⟩
      exact List.count_eq_zero.1 hread hj

theorem custody_readCb (h : Custody none s) (c : Chain) (bytes : List UInt8) (accepts : Chain → Bool) :
    Custody none (s.readCb c bytes accepts) := by
  unfold readCb
  split
  · exact h
  · rename_i i rest hread
    obtain ⟨hfrom, hapart⟩ := h.fromReading hread
    refine custody_read ?_ c accepts
    split
    · refine custody_queueEvent ?_ (fun c' i' heq => ?_) _
      · exact hfrom.fill hapart.reading fun _ => rfl
      · cases heq
        exact ⟨hapart.range, hapart.reading, hapart.uses⟩
    · exact custody_unref hfrom accepts

theorem count_eraseIdx {l : List (Bool × Ptr)} {k : Nat} {w : Bool × Ptr} (h : l[k]? = some w) (buf : Ptr) :
    ((l.eraseIdx k).map Prod.snd).count buf + (if buf = w.2 then 1 else 0) = (l.map Prod.snd).count buf := by
  obtain ⟨hk, rfl⟩ := List.getElem?_eq_some_iff.1 h
  have hp := ((List.getElem_cons_eraseIdx_perm hk).map Prod.snd).count_eq buf
  rw [← hp, List.map_cons, List.count_cons]
  by_cases hb : buf = l[k].2
  · simp [hb]
  · simp [hb, Ne.symm hb]

theorem custody_sendCb (h : Custody none s) (k : Nat) (accepts : Chain → Bool) : Custody none (s.sendCb k accepts) := by
  unfold sendCb
  split
  · exact h
  · rename_i command buf hk
    have hfrom : Custody (some (.upper buf)) { s with writing := s.writing.eraseIdx k } := by
      refine ⟨?_, h.exclusive, h.fresh, h.inRange⟩
      rintro (⟨c, i⟩ | buf')
      · have hacc := h.account (.pool c i)
        rw [count_toList]
        exact hacc
      · have hacc := h.account (.upper buf')
        have hcount : _ + (if buf' = buf then 1 else 0) = _ := count_eraseIdx hk buf'
        simp only [refCount, holders, count_toList, BufferRef.upper.injEq] at hacc ⊢
        show _ = _ + s.uses (.upper buf') + _ + s.lost (.upper buf')
        simp only [Option.toList_none, List.count_nil] at hacc
        omega
    split
    · exact custody_queueEvent hfrom (fun _ _ heq => BufferRef.noConfusion heq) _
    · exact custody_unref hfrom accepts

/-- The backend takes a reference on a buffer it is given. -/
theorem Custody.ref (h : Custody none s) (buf : Ptr) :
    Custody (some (.upper buf)) { s with refs := set s.refs buf (s.refs buf + 1) } := by
  refine ⟨?_, h.exclusive, h.fresh, h.inRange⟩
  rintro (⟨c, i⟩ | buf')
  · have hacc := h.account (.pool c i)
    rw [count_toList]
    exact hacc
  · have hacc := h.account (.upper buf')
    rw [count_toList]
    show set s.refs buf (s.refs buf + 1) buf' = s.holders (.upper buf') + s.uses (.upper buf') + _ + s.lost (.upper buf')
    simp only [refCount, Option.toList_none, List.count_nil] at hacc
    by_cases hsame : buf' = buf
    · subst hsame
      rw [set_self, if_pos rfl]
      omega
    · rw [set_ne _ hsame, if_neg fun heq => hsame (BufferRef.upper.inj heq)]
      exact hacc

theorem custody_send (h : Custody none s) (command : Bool) (buf : Ptr) (accepted : Bool) (accepts : Chain → Bool) :
    Custody none (s.send command buf accepted accepts).2 := by
  have href := h.ref buf
  unfold send
  simp only
  split
  · refine ⟨?_, href.exclusive, href.fresh, href.inRange⟩
    rintro (⟨c, i⟩ | buf')
    · have hacc := href.account (.pool c i)
      rw [count_toList] at hacc
      exact hacc
    · have hacc := href.account (.upper buf')
      rw [count_toList] at hacc
      have hcount : ((s.writing ++ [(command, buf)]).map Prod.snd).count buf' =
          (s.writing.map Prod.snd).count buf' + if BufferRef.upper buf' = .upper buf then 1 else 0 := by
        rw [List.map_append, List.count_append, List.map_singleton, List.count_singleton]
        by_cases hsame : buf' = buf
        · simp [hsame]
        · simp [hsame, Ne.symm hsame]
      show set s.refs buf (s.refs buf + 1) buf' = ((s.writing ++ [(command, buf)]).map Prod.snd).count buf' +
        s.uses (.upper buf') + 0 + s.lost (.upper buf')
      rw [hcount]
      change set s.refs buf (s.refs buf + 1) buf' = (s.writing.map Prod.snd).count buf' + s.uses (.upper buf') + _ +
        s.lost (.upper buf') at hacc
      omega
  · exact custody_unref href accepts

theorem custody_sendCommand (h : Custody none s) (buf : Ptr) (contiguous accepted : Bool) (accepts : Chain → Bool) :
    Custody none (s.hciSendCommand buf contiguous accepted accepts).2 := by
  unfold hciSendCommand
  split
  · split
    · exact custody_send h true buf accepted accepts
    · exact h
  · exact h

theorem custody_sendData (h : Custody none s) (buf : Ptr) (accepted : Bool) (accepts : Chain → Bool) :
    Custody none (s.hciSendData buf accepted accepts).2 := by
  unfold hciSendData
  split
  · exact custody_send h false buf accepted accepts
  · exact h

theorem custody_copyQueue (h : Custody none s) (hp : s.processing = []) : Custody none s.copyQueue := by
  have huses : ∀ r, s.copyQueue.uses r = s.uses r := fun r => by
    show (([] ++ s.queue : List WiiEvent).map (·.buffer)).count r = ((s.queue ++ s.processing).map (·.buffer)).count r
    rw [hp, List.append_nil, List.nil_append]
  refine ⟨fun r => ?_, fun c i => ?_, h.fresh, fun c i hpos => ?_⟩
  · rw [huses]
    cases r with
    | pool c i => exact h.account (.pool c i)
    | upper buf => exact h.account (.upper buf)
  · rw [huses]
    exact h.exclusive c i
  · rw [huses] at hpos
    exact h.inRange c i hpos

/-- The upper layers have `n` more references on a buffer that nobody reads into. -/
theorem Custody.keep (h : Custody none s) {c : Chain} {i : Nat} (hread : i ∉ s.reading c) (n : Nat) :
    Custody none { s.update c i fun b => { b with refCount := b.refCount + n } with
      kept := set s.kept c (set (s.kept c) i (s.kept c i + n)) } := by
  have hkept : ∀ c' i', set s.kept c (set (s.kept c) i (s.kept c i + n)) c' i' =
      s.kept c' i' + if c' = c ∧ i' = i then n else 0 := by
    intro c' i'
    by_cases hc : c' = c
    · subst hc
      by_cases hi : i' = i
      · simp [hi]
      · simp [hi]
    · simp [hc]
  refine ⟨?_, h.exclusive, ?_, h.inRange⟩
  · rintro (⟨c', i'⟩ | buf)
    · have hacc := h.account (.pool c' i')
      show ((s.update c i fun b => { b with refCount := b.refCount + n }).buffers c' i').refCount =
        (s.reading c').count i' + set s.kept c (set (s.kept c) i (s.kept c i + n)) c' i' + s.uses (.pool c' i') + 0 +
          s.lost (.pool c' i')
      change (s.buffers c' i').refCount = (s.reading c').count i' + s.kept c' i' + s.uses (.pool c' i') + 0 +
        s.lost (.pool c' i') at hacc
      rw [hkept, update_buffers]
      split_ifs with hsame
      · obtain ⟨rfl, rfl⟩ := hsame
        simp only
        omega
      · omega
    · exact h.account (.upper buf)
  · intro c' j hj
    obtain ⟨hrange, hk, hl, hsize⟩ := h.fresh c' j hj
    have hne : ¬ (c' = c ∧ j = i) := by
      rintro ⟨rfl, rfl⟩
      exact hread hj
    refine ⟨hrange, ?_, hl, ?_⟩
    · show set s.kept c (set (s.kept c) i (s.kept c i + n)) c' j = 0
      rw [hkept, if_neg hne, hk]
    · show ((s.update c i fun b => { b with refCount := b.refCount + n }).buffers c' j).size = c'.len
      rw [update_buffers, if_neg hne]
      exact hsize

theorem Custody.not_reading {hand : Option BufferRef} (h : Custody hand s) {c : Chain} {i : Nat}
    (huses : 0 < s.uses (.pool c i)) : i ∉ s.reading c := by
  intro hmem
  have hone := h.exclusive c i
  have hpos := List.count_pos_iff.2 hmem
  omega

theorem custody_handle (h : Custody none s) (refs : Nat) : Custody none (s.handle refs) := by
  unfold handle
  split
  · exact h
  · rename_i e rest hp
    split
    · rename_i c c' i htype hbuf
      have huses := uses_cons hp (.pool c' i)
      rw [hbuf, if_pos rfl] at huses
      have hkeep := h.keep (h.not_reading (by omega : 0 < s.uses (.pool c' i))) refs
      exact ⟨hkeep.account, hkeep.exclusive, hkeep.fresh, hkeep.inRange⟩
    · exact ⟨h.account, h.exclusive, h.fresh, h.inRange⟩

/-- The thread has done with the first event of its copy. -/
theorem Custody.fromProcessing (h : Custody none s) {e : WiiEvent} {rest : List WiiEvent}
    (hp : s.processing = e :: rest) : Custody (some e.buffer) { s with processing := rest, handling := false } := by
  refine ⟨fun r => ?_, fun c i => ?_, h.fresh, fun c i hpos => ?_⟩
  · have hacc := h.account r
    have huses := uses_cons hp r
    rw [count_toList]
    cases r with
    | pool c i =>
      show (s.buffers c i).refCount = (s.reading c).count i + s.kept c i + ((s.queue ++ rest).map (·.buffer)).count _ +
        _ + s.lost (.pool c i)
      simp only [refCount, holders, Option.toList_none, List.count_nil] at hacc
      omega
    | upper buf =>
      show s.refs buf = (s.writing.map Prod.snd).count buf + ((s.queue ++ rest).map (·.buffer)).count _ +
        _ + s.lost (.upper buf)
      simp only [refCount, holders, Option.toList_none, List.count_nil] at hacc
      omega
  · have hex := h.exclusive c i
    have huses := uses_cons hp (.pool c i)
    show (s.reading c).count i + ((s.queue ++ rest).map (·.buffer)).count (.pool c i) ≤ 1
    omega
  · have huses := uses_cons hp (.pool c i)
    change 0 < ((s.queue ++ rest).map (·.buffer)).count (.pool c i) at hpos
    exact h.inRange c i (by omega)

theorem custody_release (h : Custody none s) (accepts : Chain → Bool) : Custody none (s.release accepts) := by
  unfold release
  split
  · exact h
  · rename_i e rest hp
    exact custody_unref (h.fromProcessing hp) accepts

/-- The upper layers have done with a buffer. -/
theorem Custody.fromKept (h : Custody none s) {c : Chain} {i : Nat} (hk : 0 < s.kept c i) :
    Custody (some (.pool c i)) { s with kept := set s.kept c (set (s.kept c) i (s.kept c i - 1)) } := by
  have hkept : ∀ c' i', set s.kept c (set (s.kept c) i (s.kept c i - 1)) c' i' + (if c' = c ∧ i' = i then 1 else 0) =
      s.kept c' i' := by
    intro c' i'
    by_cases hc : c' = c
    · subst hc
      by_cases hi : i' = i
      · subst hi
        simp only [set_self, and_self, if_true]
        omega
      · simp [hi]
    · simp [hc]
  refine ⟨?_, h.exclusive, ?_, h.inRange⟩
  · rintro (⟨c', i'⟩ | buf)
    · have hacc := h.account (.pool c' i')
      have hkc := hkept c' i'
      rw [count_toList]
      simp only [pool_inj]
      show (s.buffers c' i').refCount = (s.reading c').count i' + set s.kept c _ c' i' + s.uses (.pool c' i') + _ +
        s.lost (.pool c' i')
      simp only [refCount, holders, Option.toList_none, List.count_nil] at hacc
      omega
    · have hacc := h.account (.upper buf)
      rw [count_toList]
      exact hacc
  · intro c' j hj
    obtain ⟨hrange, hkj, hl, hsize⟩ := h.fresh c' j hj
    have hkc := hkept c' j
    refine ⟨hrange, ?_, hl, hsize⟩
    show set s.kept c (set (s.kept c) i (s.kept c i - 1)) c' j = 0
    omega

theorem custody_giveBack (h : Custody none s) {c : Chain} {i : Nat} (hk : 0 < s.kept c i) (accepts : Chain → Bool) :
    Custody none (s.giveBack c i accepts) := custody_unref (h.fromKept hk) accepts

theorem custody_step (h : Custody none s) {o : WiiOp × (Chain → Bool)} (ho : s.Possible o) :
    Custody none (s.step o) := by
  obtain ⟨o, accepts⟩ := o
  cases o with
  | readCb c bytes => exact custody_readCb h c bytes accepts
  | sendCb k => exact custody_sendCb h k accepts
  | sendCommand buf contiguous accepted => exact custody_sendCommand h buf contiguous accepted accepts
  | sendData buf accepted => exact custody_sendData h buf accepted accepts
  | receive =>
    show Custody none s.receive
    unfold receive
    split
    · exact ⟨h.account, h.exclusive, h.fresh, h.inRange⟩
    · exact h
  | copyQueue => exact custody_copyQueue h ho
  | handle refs => exact custody_handle h refs
  | release => exact custody_release h accepts
  | giveBack c i => exact custody_giveBack h ho accepts
  | takeRef c i =>
    refine h.keep (fun hmem => ?_) 1
    exact absurd (h.fresh c i hmem).2.1 (Nat.pos_iff_ne_zero.1 ho)
  | deinit => exact ⟨h.account, h.exclusive, h.fresh, h.inRange⟩

/-! ## The chains -/

/-- How a chain goes on: a read is outstanding, or a freed buffer starts one, or never. -/
def links (s : Wii) (c : Chain) : Nat := (s.reading c).length + (s.requestFailed c).toNat + (s.refused c).toNat

/-- A chain that is stopped has no free buffer. -/
structure Full (s : Wii) : Prop where
  intr : s.requestFailed .intr = true → ∀ i < Chain.intr.count, (s.buffers .intr i).refCount ≠ 0
  bulk : s.requestFailed .bulk = true → s.skipped = false → ∀ i < Chain.bulk.count, (s.buffers .bulk i).refCount ≠ 0

theorem read_fd (s : Wii) (c : Chain) (accepts : Chain → Bool) : (s.read c accepts).fd = s.fd := by
  unfold read
  split
  · split
    · rfl
    · simp only
      split <;> rfl
  · rfl

theorem read_links (hfd : s.fd = true) {c : Chain} (h0 : s.links c = 0) (accepts : Chain → Bool) (c' : Chain) :
    (s.read c accepts).links c' = if c' = c then 1 else s.links c' := by
  have hnone : (s.reading c).length = 0 ∧ (s.requestFailed c).toNat = 0 ∧ (s.refused c).toNat = 0 := by
    unfold links at h0
    omega
  unfold read
  rw [if_pos hfd]
  split
  · show (s.reading c').length + (set s.requestFailed c true c').toNat + (s.refused c').toNat = _
    split_ifs with hc
    · subst hc
      rw [set_self]
      simp only [Bool.toNat_true]
      omega
    · rw [set_ne _ hc]
      rfl
  · rename_i i _
    simp only
    split
    · show (set s.reading c (s.reading c ++ [i]) c').length + (s.requestFailed c').toNat + (s.refused c').toNat = _
      split_ifs with hc
      · subst hc
        rw [set_self, List.length_append, List.length_singleton]
        omega
      · rw [set_ne _ hc]
        rfl
    · show (s.reading c').length + (s.requestFailed c').toNat + (set s.refused c true c').toNat = _
      split_ifs with hc
      · subst hc
        rw [set_self]
        simp only [Bool.toNat_true]
        omega
      · rw [set_ne _ hc]
        rfl

theorem update_used {c : Chain} {i : Nat} {f : PoolBuffer → PoolBuffer}
    (hf : (s.buffers c i).refCount ≠ 0 → (f (s.buffers c i)).refCount ≠ 0) {c' : Chain} {j : Nat}
    (hj : (s.buffers c' j).refCount ≠ 0) : ((s.update c i f).buffers c' j).refCount ≠ 0 := by
  rw [update_buffers]
  by_cases hsame : c' = c ∧ j = i
  · rw [if_pos hsame]
    rw [hsame.1, hsame.2] at hj
    exact hf hj
  · rw [if_neg hsame]
    exact hj

/-- A buffer that is in use stays in use. -/
theorem Full.update (h : Full s) {c : Chain} {i : Nat} {f : PoolBuffer → PoolBuffer}
    (hf : (s.buffers c i).refCount ≠ 0 → (f (s.buffers c i)).refCount ≠ 0) : Full (s.update c i f) :=
  ⟨fun hflag j hj => update_used hf (h.intr hflag j hj), fun hflag hs j hj => update_used hf (h.bulk hflag hs j hj)⟩

theorem full_read (h : Full s) (c : Chain) (accepts : Chain → Bool) : Full (s.read c accepts) := by
  unfold read
  split
  · split
    · rename_i hnone
      have hall := alloc_none hnone
      cases c with
      | intr => exact ⟨fun _ => hall, h.bulk⟩
      | bulk => exact ⟨h.intr, fun _ _ => hall⟩
    · rename_i i _
      have hup := h.update (c := c) (i := i) (f := fun b => { b with refCount := 1, size := c.len })
        fun _ => Nat.one_ne_zero
      simp only
      split <;> exact ⟨hup.intr, hup.bulk⟩
  · exact h

/-- Whatever was stopped: the interrupts' chain is started again first. -/
theorem full_bufferFree (s : Wii) (accepts : Chain → Bool) : Full (s.bufferFree accepts) := by
  unfold bufferFree
  split
  · refine full_read ⟨fun hf => ?_, fun hf hs => ?_⟩ .intr accepts
    · exact absurd hf (by simp)
    · change (s.skipped || s.requestFailed .bulk) = false at hs
      change s.requestFailed .bulk = true at hf
      rw [hf, Bool.or_true] at hs
      exact Bool.noConfusion hs
  · rename_i hintr
    split
    · refine full_read ⟨fun hf => ?_, fun hf => ?_⟩ .bulk accepts
      · exact absurd hf (by simpa using hintr)
      · exact absurd hf (by simp)
    · rename_i hbulk
      exact ⟨fun hf => absurd hf hintr, fun hf => absurd hf hbulk⟩

theorem full_unref (h : Full s) (accepts : Chain → Bool) (r : BufferRef) : Full (s.unref accepts r) := by
  cases r with
  | upper buf => exact ⟨h.intr, h.bulk⟩
  | pool c i =>
    unfold unref
    simp only
    split
    · exact full_bufferFree _ accepts
    · rename_i hone
      refine h.update fun hne => ?_
      show (s.buffers c i).refCount - 1 ≠ 0
      omega

theorem bufferFree_links (hfd : s.fd = true) (hone : ∀ c, s.links c ≤ 1) (accepts : Chain → Bool) (c : Chain) :
    (s.bufferFree accepts).links c = s.links c := by
  -- the flag of the chain that is started was its only link
  have hcleared : ∀ c' b, s.requestFailed c' = true →
      ({ s with requestFailed := set s.requestFailed c' false, skipped := b }.read c' accepts).links c = s.links c := by
    intro c' b hf
    have hc := hone c'
    have hlink : s.links c' = 1 := by
      unfold links at hc ⊢
      rw [hf] at hc ⊢
      simp only [Bool.toNat_true] at hc ⊢
      omega
    refine (read_links ?_ ?_ accepts c).trans ?_
    · exact hfd
    · show (s.reading c').length + (set s.requestFailed c' false c').toNat + (s.refused c').toNat = 0
      rw [set_self]
      unfold links at hlink
      rw [hf] at hlink
      simp only [Bool.toNat_true, Bool.toNat_false] at hlink ⊢
      omega
    · split_ifs with hsame
      · rw [hsame, hlink]
      · show (s.reading c).length + (set s.requestFailed c' false c).toNat + (s.refused c).toNat = _
        rw [set_ne _ hsame]
        rfl
  unfold bufferFree
  split
  · exact hcleared .intr _ ‹_›
  · split
    · exact hcleared .bulk _ ‹_›
    · rfl

theorem unref_links (hfd : s.fd = true) (hone : ∀ c, s.links c ≤ 1) (accepts : Chain → Bool) (r : BufferRef)
    (c : Chain) : (s.unref accepts r).links c = s.links c := by
  cases r with
  | upper buf => rfl
  | pool c' i =>
    unfold unref
    simp only
    split
    · refine (bufferFree_links ?_ ?_ accepts c).trans ?_
      · exact hfd
      · exact hone
      · rfl
    · rfl

theorem bufferFree_fd (s : Wii) (accepts : Chain → Bool) : (s.bufferFree accepts).fd = s.fd := by
  unfold bufferFree
  split
  · exact read_fd _ _ _
  · split
    · exact read_fd _ _ _
    · rfl

theorem unref_fd (s : Wii) (accepts : Chain → Bool) (r : BufferRef) : (s.unref accepts r).fd = s.fd := by
  cases r with
  | upper buf => rfl
  | pool c i =>
    unfold unref
    simp only
    split
    · exact bufferFree_fd _ accepts
    · rfl

theorem queueEvent_fd (s : Wii) (e : WiiEvent) (got : List (Chain × List UInt8)) : (s.queueEvent e got).fd = s.fd := by
  unfold queueEvent
  split <;> rfl

theorem queueEvent_links (s : Wii) (e : WiiEvent) (got : List (Chain × List UInt8)) (c : Chain) :
    (s.queueEvent e got).links c = s.links c := by
  unfold queueEvent
  split <;> rfl

theorem full_queueEvent (h : Full s) (e : WiiEvent) (got : List (Chain × List UInt8)) : Full (s.queueEvent e got) := by
  unfold queueEvent
  split <;> exact ⟨h.intr, h.bulk⟩

/-- Both chains go on, each in one way. -/
structure Chains (s : Wii) : Prop where
  one : s.fd = true → ∀ c, s.links c = 1
  full : Full s

theorem Chains.unref (h : Chains s) (accepts : Chain → Bool) (r : BufferRef) : Chains (s.unref accepts r) where
  one hfd c := by
    rw [unref_fd] at hfd
    rw [unref_links hfd (fun c' => Nat.le_of_eq (h.one hfd c')) accepts r c]
    exact h.one hfd c
  full := full_unref h.full accepts r

theorem chains_readCb (h : Chains s) (c : Chain) (bytes : List UInt8) (accepts : Chain → Bool) :
    Chains (s.readCb c bytes accepts) := by
  unfold readCb
  split
  · exact h
  · rename_i i rest hread
    -- what is between the end of this read and the start of the next
    have hbetween : ∀ s' : Wii, s'.fd = s.fd → Full s' →
        (s.fd = true → s'.links c = 0 ∧ ∀ c', c' ≠ c → s'.links c' = 1) → Chains (s'.read c accepts) := by
      intro s' hfd' hfull hlinks
      refine ⟨fun hfd c' => ?_, full_read hfull c accepts⟩
      rw [read_fd, hfd'] at hfd
      obtain ⟨h0, hother⟩ := hlinks hfd
      rw [read_links (hfd'.trans hfd) h0]
      split_ifs with hc
      · rfl
      · exact hother c' hc
    have hlinks : s.fd = true → ∀ c', ({ s with reading := set s.reading c rest } : Wii).links c' =
        if c' = c then 0 else 1 := by
      intro hfd c'
      have hone := h.one hfd c'
      show (set s.reading c rest c').length + (s.requestFailed c').toNat + (s.refused c').toNat = _
      unfold links at hone
      split_ifs with hc
      · subst hc
        rw [hread, List.length_cons] at hone
        rw [set_self]
        omega
      · rw [set_ne _ hc]
        exact hone
    simp only
    split
    · refine hbetween _ (queueEvent_fd _ _ _) (full_queueEvent ?_ _ _) fun hfd => ?_
      · refine Full.update (s := { s with reading := set s.reading c rest }) ⟨h.full.intr, h.full.bulk⟩ fun hne => ?_
        exact hne
      · rw [queueEvent_links]
        refine ⟨(hlinks hfd c).trans (if_pos rfl), fun c' hc => ?_⟩
        rw [queueEvent_links]
        exact (hlinks hfd c').trans (if_neg hc)
    · have hone : s.fd = true → ∀ c', ({ s with reading := set s.reading c rest } : Wii).links c' ≤ 1 := fun hfd c' => by
        rw [hlinks hfd c']
        split <;> decide
      have hfull : Full { s with reading := set s.reading c rest } := ⟨h.full.intr, h.full.bulk⟩
      refine hbetween _ (unref_fd _ _ _) (full_unref hfull accepts _) fun hfd => ⟨?_, fun c' hc => ?_⟩
      · have hsame := unref_links (s := { s with reading := set s.reading c rest }) hfd (hone hfd) accepts (.pool c i) c
        exact hsame.trans ((hlinks hfd c).trans (if_pos rfl))
      · have hsame := unref_links (s := { s with reading := set s.reading c rest }) hfd (hone hfd) accepts (.pool c i) c'
        exact hsame.trans ((hlinks hfd c').trans (if_neg hc))

theorem Chains.update (h : Chains s) {c : Chain} {i : Nat} {f : PoolBuffer → PoolBuffer}
    (hf : (s.buffers c i).refCount ≠ 0 → (f (s.buffers c i)).refCount ≠ 0) : Chains (s.update c i f) :=
  ⟨h.one, h.full.update hf⟩

theorem chains_queueEvent (h : Chains s) (e : WiiEvent) (got : List (Chain × List UInt8)) :
    Chains (s.queueEvent e got) where
  one hfd c := by
    rw [queueEvent_fd] at hfd
    rw [queueEvent_links]
    exact h.one hfd c
  full := full_queueEvent h.full e got

theorem chains_send (h : Chains s) (command : Bool) (buf : Ptr) (accepted : Bool) (accepts : Chain → Bool) :
    Chains (s.send command buf accepted accepts).2 := by
  unfold send
  simp only
  split <;> exact ⟨h.one, h.full.intr, h.full.bulk⟩

theorem chains_step (h : Chains s) (o : WiiOp × (Chain → Bool)) : Chains (s.step o) := by
  obtain ⟨o, accepts⟩ := o
  cases o with
  | readCb c bytes => exact chains_readCb h c bytes accepts
  | sendCb k =>
    show Chains (s.sendCb k accepts)
    unfold sendCb
    split
    · exact h
    · simp only
      split
      · refine chains_queueEvent ?_ _ _
        exact ⟨h.one, h.full.intr, h.full.bulk⟩
      · exact ⟨h.one, h.full.intr, h.full.bulk⟩
  | sendCommand buf contiguous accepted =>
    show Chains (s.hciSendCommand buf contiguous accepted accepts).2
    unfold hciSendCommand
    split
    · split
      · exact chains_send h true buf accepted accepts
      · exact h
    · exact h
  | sendData buf accepted =>
    show Chains (s.hciSendData buf accepted accepts).2
    unfold hciSendData
    split
    · exact chains_send h false buf accepted accepts
    · exact h
  | receive =>
    show Chains s.receive
    unfold receive
    split
    · exact ⟨h.one, h.full.intr, h.full.bulk⟩
    · exact h
  | copyQueue => exact ⟨h.one, h.full.intr, h.full.bulk⟩
  | handle refs =>
    show Chains (s.handle refs)
    unfold handle
    split
    · exact h
    · split
      · rename_i c c' i _ _
        have hup := h.update (c := c') (i := i) (f := fun b => { b with refCount := b.refCount + refs }) fun hne => by
          show (s.buffers c' i).refCount + refs ≠ 0
          omega
        exact ⟨hup.one, hup.full.intr, hup.full.bulk⟩
      · exact ⟨h.one, h.full.intr, h.full.bulk⟩
  | release =>
    show Chains (s.release accepts)
    unfold release
    split
    · exact h
    · refine Chains.unref ?_ accepts _
      exact ⟨h.one, h.full.intr, h.full.bulk⟩
  | giveBack c i =>
    show Chains (s.giveBack c i accepts)
    unfold giveBack
    refine Chains.unref ?_ accepts _
    exact ⟨h.one, h.full.intr, h.full.bulk⟩
  | takeRef c i =>
    have hup := h.update (c := c) (i := i) (f := fun b => { b with refCount := b.refCount + 1 })
      fun _ => Nat.succ_ne_zero _
    exact ⟨hup.one, hup.full.intr, hup.full.bulk⟩
  | deinit => exact ⟨fun hfd => Bool.noConfusion hfd, h.full.intr, h.full.bulk⟩

/-! ## Runs -/

/-- After `wii_init`. -/
def begun (accepts : Chain → Bool) : Wii := (start.init true true true accepts).2

theorem begun_custody (accepts : Chain → Bool) : Custody none (begun accepts) := by
  refine custody_read (custody_read ?_ .intr accepts) .bulk accepts
  exact ⟨custody_start.account, custody_start.exclusive, custody_start.fresh, custody_start.inRange⟩

theorem begun_chains (accepts : Chain → Bool) : Chains (begun accepts) := by
  have hfull : Full { start with fd := true, mailbox := false } :=
    ⟨fun hf => Bool.noConfusion hf, fun hf => Bool.noConfusion hf⟩
  refine ⟨fun _ c => ?_, full_read (full_read hfull .intr accepts) .bulk accepts⟩
  have hintr := read_links (s := { start with fd := true, mailbox := false }) rfl (c := .intr) rfl accepts
  have hbulk := read_links (s := ({ start with fd := true, mailbox := false } : Wii).read .intr accepts)
    (read_fd _ _ _) (c := .bulk) (hintr .bulk) accepts c
  refine hbulk.trans ?_
  rw [hintr]
  cases c <;> rfl

/-- A run from `wii_init` on. -/
def Runs (accepts : Chain → Bool) (ops : List (WiiOp × (Chain → Bool))) : Prop :=
  Sys.Admissible step Possible (begun accepts) ops

theorem custody_run {accepts : Chain → Bool} {ops : List (WiiOp × (Chain → Bool))} (h : Runs accepts ops) :
    Custody none (Sys.run step (begun accepts) ops) := by
  have hstep : ∀ s o, Custody none s → Possible s o → Custody none (step s o) := fun _ _ hs ho => custody_step hs ho
  exact Sys.inv_run hstep ops _ (begun_custody accepts) h

theorem chains_run {accepts : Chain → Bool} {ops : List (WiiOp × (Chain → Bool))} (h : Runs accepts ops) :
    Chains (Sys.run step (begun accepts) ops) := by
  have hstep : ∀ s o, Chains s → Possible s o → Chains (step s o) := fun _ o hs _ => chains_step hs o
  exact Sys.inv_run hstep ops _ (begun_chains accepts) h

/-- **Every reference on a buffer is somebody's, and the chains go on.**  In every run in which each function runs to its
end: the references on a buffer are those of the USB, of the events and of the upper layers, and those that were lost; the
USB reads into a buffer that nobody else has; each chain has one read outstanding, or is stopped, or was refused a read; and
a stopped chain has no free buffer, but for the second chain when a buffer was freed while both were stopped. -/
theorem wii_custody (accepts : Chain → Bool) (ops : List (WiiOp × (Chain → Bool))) (h : Runs accepts ops) :
    let s := Sys.run step (begun accepts) ops
    (∀ r, s.refCount r = s.holders r + s.uses r + s.lost r) ∧
    (∀ c, ∀ i ∈ s.reading c, s.refCount (.pool c i) = 1 ∧ s.uses (.pool c i) = 0 ∧ s.kept c i = 0) ∧
    (s.fd = true → ∀ c, s.links c = 1) ∧
    (s.requestFailed .intr = true → ∀ i < wiiBufferIntrCount, s.refCount (.pool .intr i) ≠ 0) ∧
    (s.requestFailed .bulk = true → s.skipped = false → ∀ i < wiiBufferDataCount, s.refCount (.pool .bulk i) ≠ 0) := by
  intro s
  have hcustody : Custody none s := custody_run h
  have hchains : Chains s := chains_run h
  refine ⟨hcustody.account, fun c i hi => ?_, hchains.one, hchains.full.intr, hchains.full.bulk⟩
  obtain ⟨-, hkept, hlost, -⟩ := hcustody.fresh c i hi
  have hacc := hcustody.account (.pool c i)
  have hone := hcustody.exclusive c i
  have hpos := List.count_pos_iff.2 hi
  simp only [holders, Option.toList_none, List.count_nil] at hacc
  exact ⟨by omega, by omega, hkept⟩

/-- Always accepted. -/
def always (_ : Chain) : Bool := true

/-- An event is read, handed over and kept; the next read fails; a command is sent; and what was kept is given back. -/
def shortRun : List (WiiOp × (Chain → Bool)) :=
  [(.readCb .intr [0x0E, 1, 2], always), (.sendCommand 7 true true, always), (.readCb .intr [], always),
    (.sendCb 0, always), (.receive, always), (.copyQueue, always), (.handle 1, always), (.release, always),
    (.readCb .bulk [1, 2, 3, 4], always), (.handle 0, always), (.release, always), (.giveBack .intr 0, always)]

theorem wii_custody_shortRun :
    let s := Sys.run step (begun always) shortRun
    Runs always shortRun ∧
    (∀ r, s.refCount r = s.holders r + s.uses r + s.lost r) ∧
    (∀ c, ∀ i ∈ s.reading c, s.refCount (.pool c i) = 1 ∧ s.uses (.pool c i) = 0 ∧ s.kept c i = 0) ∧
    (s.fd = true → ∀ c, s.links c = 1) ∧
    (s.requestFailed .intr = true → ∀ i < wiiBufferIntrCount, s.refCount (.pool .intr i) ≠ 0) ∧
    (s.requestFailed .bulk = true → s.skipped = false → ∀ i < wiiBufferDataCount, s.refCount (.pool .bulk i) ≠ 0) := by
  have hrun : Runs always shortRun := by
    unfold Runs
    decide
  exact ⟨hrun, wii_custody always shortRun hrun⟩

/-- Fifteen HCI events that the upper layers keep, all the data buffers, and one more HCI event, in one copy of the
queue. -/
def stalledRun : List (WiiOp × (Chain → Bool)) :=
  List.replicate 15 (.readCb .intr [1], always) ++ List.replicate 64 (.readCb .bulk [1], always) ++
    [(.readCb .intr [1], always), (.copyQueue, always)] ++
    (List.replicate 15 [(.handle 1, always), (.release, always)]).flatten ++
    (List.replicate 65 [(.handle 0, always), (.release, always)]).flatten

/-- The second chain stays stopped with all its buffers free and no event waiting: those that were freed started the first
chain, in vain, and the last one gave it a buffer. -/
theorem bulk_stays_stopped :
    let s := Sys.run step (begun always) stalledRun
    Runs always stalledRun ∧ s.requestFailed .bulk = true ∧
      (∀ i < wiiBufferDataCount, s.refCount (.pool .bulk i) = 0) ∧ s.queue = [] ∧ s.processing = [] := by
  unfold Runs
  decide +kernel

end Wii

end Bte
