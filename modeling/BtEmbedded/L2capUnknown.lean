import BtEmbedded.L2capPayload
import BtEmbedded.L2capSplit
/-!
# L2capUnknown — the options that a response gives back (l2cap.c)

`l2cap_configure_reply_type_error` goes over a request again and copies the options of unknown types into the response.  It
copies a value in pieces of 32 bytes, and the last piece is as long as the others: a value that is longer than one piece and
not a whole number of them takes bytes of what follows it along, and one of more than seven pieces is never done, since the
count of the bytes copied has 8 bits.

The bytes that are copied too many may happen to be the right ones, as long as they are of the next unknown option; they
never are once the end of the request is passed.  Which bytes come after it is up to the peer.
-/
namespace Bte

open Bytes Tlv

/-! ## The inner loop -/

/-- How many bytes the inner loop copies for a value of some length, if it ends. -/
def copiedBytes (n : Nat) : Option Nat := if n ≤ 32 then some n else if n ≤ 224 then some (32 * ((n + 31) / 32)) else none

/-- **The lengths that are copied whole**: one piece, or up to seven full ones. -/
def CopiedWhole (n : Nat) : Prop := n ≤ 32 ∨ 32 ∣ n ∧ n ≤ 224

instance (n : Nat) : Decidable (CopiedWhole n) := inferInstanceAs (Decidable (_ ∨ _))

theorem copiedBytes_eq {n : Nat} : copiedBytes n = some n ↔ CopiedWhole n := by
  unfold copiedBytes CopiedWhole
  split
  · simp [*]
  · split
    · simp only [Option.some.injEq]
      omega
    · simp only [reduceCtorEq, false_iff]
      omega

theorem copiedBytes_le {n m : Nat} (h : copiedBytes n = some m) : n ≤ m ∧ m ≤ 224 := by
  unfold copiedBytes at h
  split at h
  · cases h
    omega
  · split at h
    · cases h
      omega
    · cases h

/-- A read that does not come up short. -/
theorem readOver_full (host : L2capHost) {reader : List UInt8} {n : Nat} (h : n ≤ reader.length) :
    readOver host reader n = reader.take n := by
  have hlen : (reader.take n).length = n := by rw [List.length_take]; omega
  unfold readOver blit
  simp [hlen]

theorem length_readOver (host : L2capHost) (reader : List UInt8) (n : Nat) : (readOver host reader n).length = n := by
  unfold readOver
  rw [length_blit (by simp)]
  simp

/-- One turn: the length of a piece is a minimum with the whole length, not with what is left. -/
theorem copyParam_more (host : L2capHost) {n paramRead : Nat} (h : paramRead < n) (fuel : Nat) (reader : List UInt8) :
    copyParam host n (fuel + 1) paramRead reader =
      (copyParam host n fuel ((paramRead + min n 32) % 256) (reader.drop (min n 32))).map fun r =>
        (readOver host reader (min n 32) :: r.1, r.2) := by
  rw [copyParam, if_pos h]

/-- A value of several pieces, from one of them on. -/
theorem copyParam_pieces (host : L2capHost) {n : Nat} (hn : 32 < n) (hn' : n ≤ 224) :
    ∀ (fuel k : Nat) (reader : List UInt8), 32 * k ≤ 224 → 8 ≤ fuel + k → 32 * ((n + 31) / 32 - k) ≤ reader.length →
      ∃ pieces, copyParam host n fuel (32 * k) reader = some (pieces, reader.drop (32 * ((n + 31) / 32 - k))) ∧
        pieces.flatten = reader.take (32 * ((n + 31) / 32 - k))
  | 0, k, _, hk, hfuel, _ => absurd hk (by omega)
  | fuel + 1, k, reader, hk, hfuel, hlen => by
    by_cases hmore : 32 * k < n
    · have hmin : min n 32 = 32 := Nat.min_eq_right hn.le
      have hcount : (32 * k + 32) % 256 = 32 * (k + 1) := by omega
      have hleft : (n + 31) / 32 - k = (n + 31) / 32 - (k + 1) + 1 := by omega
      obtain ⟨pieces, hcopy, hpieces⟩ := copyParam_pieces host hn hn' fuel (k + 1) (reader.drop 32) (by omega) (by omega)
        (by rw [List.length_drop]; omega)
      rw [copyParam_more host hmore, hmin, hcount, hcopy]
      refine ⟨readOver host reader 32 :: pieces, ?_, ?_⟩
      · rw [Option.map_some, List.drop_drop, hleft, Nat.mul_succ, Nat.add_comm 32]
      · rw [List.flatten_cons, hpieces, readOver_full host (by omega), ← List.take_add, hleft, Nat.mul_succ, Nat.add_comm 32]
    · have hdone : (n + 31) / 32 - k = 0 := by omega
      rw [copyParam, if_neg hmore, hdone]
      exact ⟨[], rfl, rfl⟩

/-- A value of more than seven pieces is never done. -/
theorem copyParam_never (host : L2capHost) {n : Nat} (hn : 224 < n) :
    ∀ (fuel k : Nat) (reader : List UInt8), 32 * k ≤ 224 → copyParam host n fuel (32 * k) reader = none
  | 0, _, _, _ => rfl
  | fuel + 1, k, reader, hk => by
    have hmin : min n 32 = 32 := Nat.min_eq_right (by omega)
    obtain ⟨k', hk', hcount⟩ : ∃ k', 32 * k' ≤ 224 ∧ (32 * k + 32) % 256 = 32 * k' := by
      by_cases hlast : 32 * k = 224
      · exact ⟨0, by omega, by omega⟩
      · exact ⟨k + 1, by omega, by omega⟩
    rw [copyParam_more host (by omega), hmin, hcount, copyParam_never host hn fuel k' _ hk']
    rfl

/-- **What the inner loop does**, if it finds that much in the reader. -/
theorem copyParam_spec (host : L2capHost) (n : Nat) {reader : List UInt8}
    (hlen : ∀ m, copiedBytes n = some m → m ≤ reader.length) :
    match copiedBytes n with
    | none => copyParam host n 9 0 reader = none
    | some m => ∃ pieces, copyParam host n 9 0 reader = some (pieces, reader.drop m) ∧ pieces.flatten = reader.take m := by
  unfold copiedBytes at hlen ⊢
  by_cases hone : n ≤ 32
  · rw [if_pos hone] at hlen ⊢
    have hfull := hlen n rfl
    simp only
    by_cases hzero : n = 0
    · subst hzero
      exact ⟨[], rfl, rfl⟩
    · have hmin : min n 32 = n := Nat.min_eq_left hone
      have hcount : (0 + n) % 256 = n := by omega
      refine ⟨[readOver host reader n], ?_, ?_⟩
      · rw [copyParam_more host (by omega), hmin, hcount, copyParam, if_neg (Nat.lt_irrefl n)]
        rfl
      · simp [readOver_full host hfull]
  · rw [if_neg hone] at hlen ⊢
    by_cases hseven : n ≤ 224
    · rw [if_pos hseven] at hlen ⊢
      exact copyParam_pieces host (by omega) hseven 9 0 reader (by omega) (by omega) (hlen _ rfl)
    · rw [if_neg hseven]
      exact copyParam_never host (by omega) 9 0 reader (by omega)

/-! ## The outer loop -/

section Copying

variable {host : L2capHost} {cmdSize : Nat}

theorem known_iff (t : Tlv) : l2capConfigureTypeIsKnown t.type.toNat = !unknownOption t := by
  unfold l2capConfigureTypeIsKnown unknownOption optionOf
  cases ConfigOption.ofType (t.type.toNat &&& 0x7f) <;> by_cases h : t.type.toNat &&& l2capConfigHint = 0 <;> simp [h]

/-- An option that is known is passed over. -/
theorem copyUnknown_known {a b : UInt8} (ha : l2capConfigureTypeIsKnown a.toNat = true) {read : Nat} (hread : read < cmdSize)
    (fuel : Nat) (rest : List UInt8) :
    copyUnknown host cmdSize (fuel + 1) read (a :: b :: rest) =
      copyUnknown host cmdSize fuel ((read + 2 + b.toNat) % 65536) (rest.drop b.toNat) := by
  have hheader : readOver host (a :: b :: rest) 2 = [a, b] := readOver_full host (by simp)
  rw [copyUnknown, if_pos hread, hheader]
  simp only [List.getD_cons_zero, List.getD_cons_succ, ha, if_true, List.drop_succ_cons, List.drop_zero]

/-- **One that is not goes into the response**, with what follows its value if it takes more. -/
theorem copyUnknown_copies {a b : UInt8} (ha : l2capConfigureTypeIsKnown a.toNat = false) {m : Nat}
    (hm : copiedBytes b.toNat = some m) {read : Nat} (hread : read < cmdSize) (fuel : Nat) {rest : List UInt8}
    (hlen : m ≤ rest.length) :
    ∃ pieces, pieces.flatten = rest.take m ∧ copyUnknown host cmdSize (fuel + 1) read (a :: b :: rest) =
      (copyUnknown host cmdSize fuel ((read + 2 + b.toNat) % 65536) (rest.drop m)).map fun more =>
          [a, b] :: pieces ++ more := by
  have hheader : readOver host (a :: b :: rest) 2 = [a, b] := readOver_full host (by simp)
  have hspec := @copyParam_spec host b.toNat rest fun k hk => by
    rw [hm] at hk
    cases hk
    exact hlen
  rw [hm] at hspec
  obtain ⟨pieces, hcopy, hpieces⟩ := hspec
  refine ⟨pieces, hpieces, ?_⟩
  rw [copyUnknown, if_pos hread, hheader]
  simp only [List.getD_cons_zero, List.getD_cons_succ, ha, Bool.false_eq_true, if_false, List.drop_succ_cons,
    List.drop_zero, hcopy, Option.bind_some]

/-- **A value that is too long is copied for ever.** -/
theorem copyUnknown_stuck {a b : UInt8} (ha : l2capConfigureTypeIsKnown a.toNat = false) (hm : copiedBytes b.toNat = none)
    {read : Nat} (hread : read < cmdSize) (fuel : Nat) (rest : List UInt8) :
    copyUnknown host cmdSize (fuel + 1) read (a :: b :: rest) = none := by
  have hheader : readOver host (a :: b :: rest) 2 = [a, b] := readOver_full host (by simp)
  have hspec := @copyParam_spec host b.toNat rest fun k hk => by
    rw [hm] at hk
    cases hk
  rw [hm] at hspec
  rw [copyUnknown, if_pos hread, hheader]
  simp only [List.getD_cons_zero, List.getD_cons_succ, ha, Bool.false_eq_true, if_false, List.drop_succ_cons,
    List.drop_zero, show copyParam host b.toNat 9 0 rest = none from hspec, Option.bind_none]

/-- What goes into the response begins with an unknown type. -/
theorem copyUnknown_head :
    ∀ (fuel read : Nat) (reader : List UInt8) {writes : List (List UInt8)} {a : UInt8} {bs : List UInt8},
    copyUnknown host cmdSize fuel read reader = some writes → writes.flatten = a :: bs →
      l2capConfigureTypeIsKnown a.toNat = false
  | 0, _, _, _, _, _, h, _ => by cases h
  | fuel + 1, read, reader, writes, a, bs, h, hbs => by
    rw [copyUnknown] at h
    split at h
    · simp only at h
      split at h
      · exact copyUnknown_head fuel _ _ h hbs
      · rename_i hknown
        obtain ⟨r, -, hr⟩ := Option.bind_eq_some_iff.1 h
        obtain ⟨more, -, rfl⟩ := Option.map_eq_some_iff.1 hr
        obtain ⟨c, d, hcd⟩ := List.length_eq_two.1 (length_readOver host reader 2)
        rw [hcd] at hbs hknown
        simp only [List.cons_append, List.flatten_cons, List.nil_append, List.cons.injEq] at hbs
        rw [← hbs.1]
        simpa using hknown
    · cases h
      cases hbs

/-- **A row of options that are copied whole is copied as it is.** -/
theorem copyUnknown_row (tail : List UInt8) (hcmd : cmdSize < 65536) :
    ∀ (ts : List Tlv) (fuel read : Nat), ts.length < fuel → read + (encode ts).length = cmdSize →
      (∀ t ∈ ts, unknownOption t → CopiedWhole t.value.length) →
      ∃ writes, copyUnknown host cmdSize fuel read (encode ts ++ tail) = some writes ∧
        writes.flatten = encode (unknownOptions ts)
  | _, 0, _, hfuel, _, _ => absurd hfuel (Nat.not_lt_zero _)
  | [], fuel + 1, read, _, hread, _ => by
    have hend : ¬ read < cmdSize := by simpa using hread.ge
    rw [copyUnknown, if_neg hend]
    exact ⟨[], rfl, rfl⟩
  | t :: ts, fuel + 1, read, hfuel, hread, hts => by
    have hsize : (UInt8.ofNat t.value.length).toNat = t.value.length := UInt8.toNat_ofNat_of_lt' t.short
    rw [encode_cons, List.length_append, Tlv.length_bytes] at hread
    have hnext : (read + 2 + t.value.length) % 65536 = read + t.size := by
      rw [Nat.add_assoc, ← Tlv.size, Nat.mod_eq_of_lt (by omega)]
    obtain ⟨more, hmore, hflat⟩ := copyUnknown_row tail hcmd ts fuel (read + t.size)
      (Nat.lt_of_succ_lt_succ hfuel) (by omega) fun u hu => hts u (List.mem_cons_of_mem t hu)
    have hpos := t.size_pos
    rw [encode_cons, List.append_assoc, Tlv.bytes, List.cons_append, List.cons_append]
    by_cases hu : unknownOption t
    · have hm := copiedBytes_eq.2 (hts t (List.mem_cons_self ..) hu)
      rw [← hsize] at hm
      obtain ⟨pieces, hpieces, hcopy⟩ := @copyUnknown_copies host cmdSize t.type (UInt8.ofNat t.value.length)
        (by rw [known_iff, hu]; rfl) _ hm read (by omega) fuel (t.value ++ (encode ts ++ tail))
        (by rw [hsize, List.length_append]; omega)
      rw [hsize] at hpieces hcopy
      rw [hcopy, hnext, List.drop_left, hmore]
      refine ⟨_, rfl, ?_⟩
      rw [unknownOptions, List.filter_cons_of_pos hu, ← unknownOptions, encode_cons, ← hflat]
      simp [hpieces, Tlv.bytes]
    · rw [copyUnknown_known (by rw [known_iff]; simpa using hu) (by omega), hsize, hnext, List.drop_left, hmore]
      refine ⟨more, rfl, ?_⟩
      rw [unknownOptions, List.filter_cons_of_neg hu, ← unknownOptions, hflat]

/-! ## Copying too much -/

/-- A row with an unknown option in front, or none, is told from a known one by its first byte. -/
theorem encode_unknown_head {t : Tlv} (ht : unknownOption t = false) (ts : List Tlv) (bs : List UInt8) :
    encode (unknownOptions ts) ≠ t.type :: bs := by
  intro h
  cases hts : unknownOptions ts with
  | nil =>
    rw [hts] at h
    cases h
  | cons u us =>
    have hu : unknownOption u := (List.mem_filter.1 (hts ▸ List.mem_cons_self : u ∈ unknownOptions ts)).2
    rw [hts, encode_cons, Tlv.bytes, List.cons_append] at h
    have htype : u.type = t.type := (List.cons.inj h).1
    unfold unknownOption optionOf at hu ht
    rw [htype, ht] at hu
    cases hu

/-- **Bytes copied too many are right only as long as they are of unknown options**: then what is left to be copied is the
rest of one, and the unknown options after it. -/
theorem copied_ahead {tail : List UInt8} (htail : tail ≠ []) (ts : List Tlv) :
    ∀ (u : List UInt8) {k : Nat} {more : List UInt8},
      (u ++ (encode ts ++ tail)).take k ++ more = u ++ encode (unknownOptions ts) →
      ∃ u' ts', (u ++ (encode ts ++ tail)).drop k = u' ++ (encode ts' ++ tail) ∧ more = u' ++ encode (unknownOptions ts') ∧
        k + (u'.length + (encode ts').length) = u.length + (encode ts).length := by
  -- the copy ends within what is left of the option it began in
  have hwithin : ∀ (ts : List Tlv) (u : List UInt8) {k : Nat} {more : List UInt8}, k ≤ u.length →
      (u ++ (encode ts ++ tail)).take k ++ more = u ++ encode (unknownOptions ts) →
      (u ++ (encode ts ++ tail)).drop k = u.drop k ++ (encode ts ++ tail) ∧
        more = u.drop k ++ encode (unknownOptions ts) ∧
        k + ((u.drop k).length + (encode ts).length) = u.length + (encode ts).length := by
    intro ts u k more hk h
    refine ⟨List.drop_append_of_le_length hk, ?_, by rw [List.length_drop]; omega⟩
    rw [List.take_append_of_le_length hk] at h
    nth_rewrite 2 [← List.take_append_drop k u] at h
    rw [List.append_assoc] at h
    exact List.append_cancel_left h
  induction ts with
  | nil =>
    intro u k more h
    by_cases hk : k ≤ u.length
    · exact ⟨u.drop k, [], hwithin [] u hk h⟩
    · -- or it takes of what follows the request
      obtain ⟨b, tail', rfl⟩ := List.exists_cons_of_ne_nil htail
      obtain ⟨j, rfl⟩ := Nat.exists_eq_add_of_lt (Nat.lt_of_not_le hk)
      rw [Nat.add_assoc, List.take_length_add_append, List.append_assoc] at h
      cases List.append_cancel_left h
  | cons t ts ih =>
    intro u k more h
    by_cases hk : k ≤ u.length
    · exact ⟨u.drop k, t :: ts, hwithin (t :: ts) u hk h⟩
    · obtain ⟨j, rfl⟩ := Nat.exists_eq_add_of_lt (Nat.lt_of_not_le hk)
      rw [Nat.add_assoc] at h ⊢
      rw [List.take_length_add_append, List.append_assoc] at h
      have hrest := List.append_cancel_left h
      rw [encode_cons, List.append_assoc] at hrest
      by_cases hu : unknownOption t
      · rw [unknownOptions, List.filter_cons_of_pos hu, ← unknownOptions, encode_cons] at hrest
        obtain ⟨u', ts', hdrop, hmore, hlen⟩ := ih t.bytes hrest
        refine ⟨u', ts', ?_, hmore, ?_⟩
        · rw [List.drop_length_add_append, encode_cons, List.append_assoc, hdrop]
        · rw [encode_cons, List.length_append, ← hlen]
          omega
      · rw [unknownOptions, List.filter_cons_of_neg hu, ← unknownOptions, Tlv.bytes] at hrest
        exact absurd hrest.symm (encode_unknown_head (Bool.eq_false_iff.2 hu) ts _)

/-- An unknown option, or what looks like one, is copied without fault. -/
theorem copyUnknown_step (hcmd : cmdSize < 65536) {tail : List UInt8} (htail : 226 ≤ tail.length) {a : UInt8}
    (ha : l2capConfigureTypeIsKnown a.toNat = false) {u : List UInt8} {ts : List Tlv} {fuel read : Nat}
    (hread : read < cmdSize) (hleft : read + ((a :: u).length + (encode ts).length) ≤ cmdSize) {writes : List (List UInt8)}
    (h : copyUnknown host cmdSize (fuel + 1) read (a :: u ++ (encode ts ++ tail)) = some writes)
    (hflat : writes.flatten = a :: u ++ encode (unknownOptions ts)) :
    ∃ b rest m more u' ts', u ++ (encode ts ++ tail) = b :: rest ∧ copiedBytes b.toNat = some m ∧
      copyUnknown host cmdSize fuel (read + 2 + b.toNat) (u' ++ (encode ts' ++ tail)) = some more ∧
      more.flatten = u' ++ encode (unknownOptions ts') ∧
      m + 2 + (u'.length + (encode ts').length) = (a :: u).length + (encode ts).length := by
  have hlen : 226 ≤ (u ++ (encode ts ++ tail)).length := by
    simp only [List.length_append]
    omega
  obtain ⟨b, rest, hrest⟩ := List.exists_cons_of_length_pos (show 0 < (u ++ (encode ts ++ tail)).length by omega)
  rw [hrest, List.length_cons] at hlen
  rw [List.cons_append, hrest] at h
  cases hm : copiedBytes b.toNat with
  | none =>
    rw [copyUnknown_stuck ha hm hread] at h
    cases h
  | some m =>
    obtain ⟨hle, hle'⟩ := copiedBytes_le hm
    obtain ⟨pieces, hpieces, hcopy⟩ := @copyUnknown_copies host cmdSize a b ha m hm read hread fuel rest (by omega)
    rw [hcopy, Option.map_eq_some_iff] at h
    obtain ⟨more, hmore, rfl⟩ := h
    have htake : (a :: u ++ (encode ts ++ tail)).take (m + 2) ++ more.flatten = a :: u ++ encode (unknownOptions ts) := by
      rw [← hflat, List.cons_append, hrest]
      simp [hpieces]
    obtain ⟨u', ts', hdrop, hmoreFlat, hcount⟩ := copied_ahead (List.ne_nil_of_length_pos (by omega)) ts (a :: u) htake
    rw [List.cons_append, hrest] at hdrop
    rw [Nat.mod_eq_of_lt (by omega), show rest.drop m = u' ++ (encode ts' ++ tail) from hdrop] at hmore
    exact ⟨b, rest, m, more, u', ts', hrest, hm, hmore, hmoreFlat, hcount⟩

/-- **Once it is ahead of its count, the loop goes past the end of the request**, and what it finds there goes into the
response if it looks like an unknown option. -/
theorem copyUnknown_ahead (hcmd : cmdSize < 65536) {b : UInt8} (hb : l2capConfigureTypeIsKnown b.toNat = false)
    {tail : List UInt8} (htail : 226 ≤ (b :: tail).length) :
    ∀ (fuel read : Nat) (u : List UInt8) (ts : List Tlv), read + (u.length + (encode ts).length) < cmdSize →
      ∀ {writes : List (List UInt8)}, copyUnknown host cmdSize fuel read (u ++ (encode ts ++ b :: tail)) = some writes →
        writes.flatten ≠ u ++ encode (unknownOptions ts) := by
  intro fuel
  induction fuel with
  | zero =>
    intro read u ts _ writes h
    cases h
  | succ fuel ih =>
    intro read u ts hleft writes h hflat
    -- an unknown option, from its first byte or from a later one
    have hcopied : ∀ (a : UInt8) (u : List UInt8) (ts : List Tlv), l2capConfigureTypeIsKnown a.toNat = false →
        read + ((a :: u).length + (encode ts).length) < cmdSize →
        copyUnknown host cmdSize (fuel + 1) read (a :: u ++ (encode ts ++ b :: tail)) = some writes →
        writes.flatten ≠ a :: u ++ encode (unknownOptions ts) := by
      intro a u ts ha hleft h hflat
      obtain ⟨c, rest, m, more, u', ts', -, hm, hmore, hmoreFlat, hcount⟩ :=
        copyUnknown_step hcmd htail ha (by omega) hleft.le h hflat
      have := (copiedBytes_le hm).1
      exact ih _ u' ts' (by omega) hmore hmoreFlat
    cases u with
    | cons a u =>
      by_cases ha : l2capConfigureTypeIsKnown a.toNat = true
      · exact absurd ha (Bool.eq_false_iff.1 (copyUnknown_head _ _ _ h hflat))
      · exact hcopied a u ts (Bool.eq_false_iff.2 ha) hleft h hflat
    | nil =>
      cases ts with
      | nil =>
        -- the end of the request
        obtain ⟨c, rest, hrest⟩ := List.exists_cons_of_length_pos (show 0 < tail.length by simp at htail; omega)
        rw [List.nil_append, encode_nil, List.nil_append, hrest] at h
        have hread : read < cmdSize := by omega
        cases hm : copiedBytes c.toNat with
        | none =>
          rw [copyUnknown_stuck hb hm hread] at h
          cases h
        | some m =>
          have := (copiedBytes_le hm).2
          rw [hrest] at htail
          obtain ⟨pieces, -, hcopy⟩ := @copyUnknown_copies host cmdSize b c hb m hm read hread fuel rest
            (by simp only [List.length_cons] at htail; omega)
          rw [hcopy, Option.map_eq_some_iff] at h
          obtain ⟨more, -, rfl⟩ := h
          cases hflat
      | cons t ts =>
        rw [List.nil_append, encode_cons, List.append_assoc] at h
        rw [encode_cons, List.length_append, Tlv.length_bytes] at hleft
        by_cases hu : unknownOption t
        · refine hcopied t.type (UInt8.ofNat t.value.length :: t.value) ts (by rw [known_iff, hu]; rfl) ?_ h ?_
          · simp only [List.length_cons, List.length_nil, Tlv.size] at hleft ⊢
            omega
          · rw [hflat, unknownOptions, List.filter_cons_of_pos hu]
            rfl
        · have hsize : (UInt8.ofNat t.value.length).toNat = t.value.length := UInt8.toNat_ofNat_of_lt' t.short
          simp only [List.length_nil, Tlv.size] at hleft
          rw [Tlv.bytes, List.cons_append, List.cons_append,
              copyUnknown_known (by rw [known_iff]; simpa using hu) (by omega),
            hsize, List.drop_left, Nat.mod_eq_of_lt (by omega)] at h
          refine ih _ [] ts (by simp only [List.length_nil]; omega) h ?_
          rw [hflat, unknownOptions, List.filter_cons_of_neg hu]
          rfl

/-- **A row with an option that is not copied whole is not copied as it is**, if an unknown option seems to follow. -/
theorem copyUnknown_wrong (hcmd : cmdSize < 65536) {b : UInt8} (hb : l2capConfigureTypeIsKnown b.toNat = false)
    {tail : List UInt8} (htail : 226 ≤ (b :: tail).length) (ts : List Tlv) :
    ∀ (fuel read : Nat), read + (encode ts).length = cmdSize → (∃ t ∈ ts, unknownOption t ∧ ¬ CopiedWhole t.value.length) →
      ∀ {writes : List (List UInt8)}, copyUnknown host cmdSize fuel read (encode ts ++ b :: tail) = some writes →
        writes.flatten ≠ encode (unknownOptions ts) := by
  induction ts with
  | nil => exact fun _ _ _ ⟨_, ht, _⟩ => absurd ht List.not_mem_nil
  | cons t ts ih =>
    intro fuel read hread hbad writes h hflat
    have hsize : (UInt8.ofNat t.value.length).toNat = t.value.length := UInt8.toNat_ofNat_of_lt' t.short
    rw [encode_cons, List.append_assoc] at h
    rw [encode_cons, List.length_append, Tlv.length_bytes, Tlv.size] at hread
    have hnext : (read + 2 + t.value.length) % 65536 = read + 2 + t.value.length := Nat.mod_eq_of_lt (by omega)
    have hlater : CopiedWhole t.value.length ∨ unknownOption t = false → ∃ u ∈ ts, unknownOption u ∧
      ¬ CopiedWhole u.value.length := by
      intro ht
      obtain ⟨u, hu, hunknown, hnot⟩ := hbad
      rcases List.mem_cons.1 hu with rfl | hu
      · rcases ht with ht | ht
        · exact absurd ht hnot
        · rw [ht] at hunknown
          cases hunknown
      · exact ⟨u, hu, hunknown, hnot⟩
    cases fuel with
    | zero => cases h
    | succ fuel =>
      by_cases hu : unknownOption t
      · have htype : l2capConfigureTypeIsKnown t.type.toNat = false := by
          rw [known_iff, hu]
          rfl
        by_cases hwhole : CopiedWhole t.value.length
        · have hm := copiedBytes_eq.2 hwhole
          rw [← hsize] at hm
          obtain ⟨pieces, hpieces, hcopy⟩ :=
            @copyUnknown_copies host cmdSize t.type (UInt8.ofNat t.value.length) htype _ hm read
            (by omega) fuel (t.value ++ (encode ts ++ b :: tail)) (by rw [hsize, List.length_append]; omega)
          rw [hsize] at hpieces hcopy
          rw [Tlv.bytes, List.cons_append, List.cons_append, hcopy, hnext, List.drop_left, Option.map_eq_some_iff] at h
          obtain ⟨more, hmore, rfl⟩ := h
          refine ih fuel _ (by omega) (hlater (.inl hwhole)) hmore ?_
          rw [unknownOptions, List.filter_cons_of_pos hu, ← unknownOptions, encode_cons] at hflat
          simpa [hpieces, Tlv.bytes] using hflat
        · -- the count falls behind
          have hcopied : copyUnknown host cmdSize (fuel + 1) read
              (t.type :: (UInt8.ofNat t.value.length :: t.value) ++ (encode ts ++ b :: tail)) = some writes := h
          rw [unknownOptions, List.filter_cons_of_pos hu] at hflat
          obtain ⟨c, rest, m, more, u', ts', hrest, hm, hmore, hmoreFlat, hcount⟩ :=
            copyUnknown_step hcmd htail htype (by omega) (by simp only [List.length_cons]; omega) hcopied hflat
          obtain ⟨rfl, -⟩ := List.cons.inj hrest
          rw [hsize] at hm hmore
          have hmore' : t.value.length < m := by
            rcases (copiedBytes_le hm).1.lt_or_eq with hlt | heq
            · exact hlt
            · rw [← heq] at hm
              exact absurd (copiedBytes_eq.1 hm) hwhole
          simp only [List.length_cons] at hcount
          exact copyUnknown_ahead hcmd hb htail fuel _ u' ts' (by omega) hmore hmoreFlat
      · rw [Tlv.bytes, List.cons_append, List.cons_append, copyUnknown_known (by rw [known_iff]; simpa using hu) (by omega),
          hsize, List.drop_left, hnext] at h
        refine ih fuel _ (by omega) (hlater (.inr (Bool.eq_false_iff.2 hu))) h ?_
        rw [hflat, unknownOptions, List.filter_cons_of_neg hu]
        rfl

end Copying

/-! ## The packets of the response -/

/-- The controller's packets hold the headers of a response, the blocks hold the packets, and its size can be announced. -/
structure L2capHost.Carries (host : L2capHost) (size : Nat) : Prop where
  mtu : 18 ≤ host.aclMtu
  blocks : host.layout.sizeofBuffer + host.aclMtu < 65536
  handle : host.connHandle ≤ 0xfff
  fits : (size + 8 + (host.aclMtu - 4) - 1) / (host.aclMtu - 4) * host.aclMtu ≤ 65535

theorem L2capHost.Carries.mtu' {host : L2capHost} {size : Nat} (h : host.Carries size) : host.aclMtu < 65536 := by
  have := h.blocks
  omega

/-- **The packets of a command** whose body is written piece by piece behind a head. -/
theorem createCmd_packets {host : L2capHost} {size : Nat} (hc : host.Carries size) (code id : Nat) {head : List UInt8}
    (hhead : head.length = 6) {ds : List (List UInt8)} (hds : 6 + ds.flatten.length = size) :
    ∃ writer, aclL2capCreateCmd host code id size = some writer ∧
      (bteBufferWriterEnd (writeAll (writer.storeN head) ds).2).flatMap (Packet.payload 4) =
        leBytes 2 (size + 4) ++ leBytes 2 bteL2capChannelIdSignalling ++ signalHeader code id size ++ head ++
            ds.flatten := by
  have hmtu := hc.mtu
  have hmtu' := hc.mtu'
  have hneed := packets_needed (show 0 < host.aclMtu - 4 by omega) (show 0 < size + 8 by omega)
  obtain ⟨message, -, -, hcreate, hpast, hwr, hroom, hframes⟩ := createCmd_writer (.inr (by omega)) hmtu' hc.fits code id
  refine ⟨_, hcreate, ?_⟩
  generalize message.storeN (signalHeader code id size) = w at hpast hwr hroom hframes ⊢
  have hwf := hpast.wf
  have hhdr := hpast.header
  have hsize := hpast.packet
  have hpos : w.posInPacket = 12 := by
    rcases hpast.pos with ⟨hfill, -⟩ | ⟨-, hpos⟩
    · unfold HeadersFill at hfill
      omega
    · exact hpos
  have hall : (writeAll (w.storeN head) ds).2 = (writeAll w (head :: ds)).2 := by
    rw [storeN_eq_write (by omega) (by omega)]
    rfl
  have hsum : ((head :: ds).map List.length).sum = size := by
    rw [List.map_cons, List.sum_cons, ← List.length_flatten, hhead, hds]
  obtain ⟨-, hwf', hhdr', hwr', hframes'⟩ := writeAll_spec (head :: ds) hwf (by omega)
  rw [hhdr] at hhdr' hframes'
  have hlength : (writeAll w (head :: ds)).2.written.length = size + 8 := by
    rw [hwr', hwr, List.length_append, List.length_flatten, hsum]
    simp [signalHeader]
    omega
  obtain ⟨-, -, hbytes⟩ := writerEnd_packets hwf' hhdr' (by omega) hmtu' hc.handle hneed.2.1 hlength
    (hframes'.trans hframes)
  rw [hall, hbytes, hwr', hwr]
  simp [List.append_assoc]

/-! ## The response -/

/-- The `unknown_size` that `l2cap_config_parse` computes for a request. -/
def PeerRequest.unknownSize (r : PeerRequest) (params : ConfigureParams) : Nat :=
  (l2capConfigParse true (encode r.options ++ r.tail) params (r.length - 4)).unknownSize

def unknownHead (l2cap : L2cap) (flags : Nat) : List UInt8 :=
  leBytes 2 l2cap.remoteChannelId ++ leBytes 2 flags ++ leBytes 2 l2capConfigResErrUnknown

/-- **The unknown options are given back**: `l2cap_configure_reply_type_error` ends, what it writes behind the header are the
unknown options of the request, and nothing else, and their size is `unknown_size`; so are the bytes of the packets. -/
def Echoes (host : L2capHost) (w : L2capLink) (p channelId : Nat) (params : ConfigureParams) (r : PeerRequest) : Prop :=
  ∃ buffer, l2capConfigureReplyTypeError host w p r.id (r.reader channelId) r.length (r.unknownSize params) =
      some (w.send host (some p) l2capSignalConfigRsp r.id
        (unknownHead (w.channels p) r.flags ++ encode (unknownOptions r.options)) buffer).2 ∧
    (encode (unknownOptions r.options)).length = r.unknownSize params ∧
    (host.Carries (6 + r.unknownSize params) → buffer.flatMap (Packet.payload 4) =
      leBytes 2 (6 + r.unknownSize params + 4) ++ leBytes 2 bteL2capChannelIdSignalling ++
        signalHeader l2capSignalConfigRsp r.id (6 + r.unknownSize params) ++ unknownHead (w.channels p) r.flags ++
        encode (unknownOptions r.options))

section Echo

variable {host : L2capHost} {w : L2capLink} {p channelId : Nat} {params : ConfigureParams} {r : PeerRequest}

theorem unknownSize_eq (hwf : ∀ t ∈ r.options, wellFormedOption t) (hlen : r.length < 65536) (params : ConfigureParams) :
    r.unknownSize params = (encode (unknownOptions r.options)).length := by
  have harea : r.length - 4 = (encode r.options).length := Nat.add_sub_cancel_left ..
  have hcount := countOption_row r.options 0 (by unfold PeerRequest.length at hlen; omega)
  rw [Nat.zero_add] at hcount
  rw [PeerRequest.unknownSize, harea, parse_row true hwf, hcount]
  split
  · rfl
  · rfl

/-- The second pass begins behind the header of the request. -/
theorem replyTypeError_eq (hflags : r.flags < 65536) (id replySize : Nat) :
    l2capConfigureReplyTypeError host w p id (r.reader channelId) r.length replySize =
      (copyUnknown host (encode r.options).length ((r.reader channelId).length + 65537) 0 (encode r.options ++ r.tail)).map
        fun writes => (w.send host (some p) l2capSignalConfigRsp id (unknownHead (w.channels p) r.flags ++ writes.flatten)
          (((aclL2capCreateCmd host l2capSignalConfigRsp id (l2capConfigRspHdrLen + replySize)).map fun writer =>
            bteBufferWriterEnd (writeAll (writer.storeN (unknownHead (w.channels p) r.flags)) writes).2).getD [])).2 := by
  have hreader : r.reader channelId = (leBytes 2 channelId ++ leBytes 2 r.flags) ++ (encode r.options ++ r.tail) := by
    simp [PeerRequest.reader]
  have hhead : (leBytes 2 channelId ++ leBytes 2 r.flags).length = 4 := by simp
  have hword : word (readOver host (r.reader channelId) 4) 1 = r.flags := by
    rw [readOver_full host (by rw [hreader, List.length_append, hhead]; omega), hreader, List.take_left' hhead]
    exact (leVal_leBytes 2 r.flags).trans (Nat.mod_eq_of_lt hflags)
  have hrest : (r.reader channelId).drop 4 = encode r.options ++ r.tail := by
    rw [hreader, List.drop_left' hhead]
  have harea : r.length - 4 = (encode r.options).length := Nat.add_sub_cancel_left ..
  unfold l2capConfigureReplyTypeError
  rw [hword, hrest, harea]
  rfl

theorem echoes_of_whole (hwf : ∀ t ∈ r.options, wellFormedOption t) (hlen : r.length < 65536) (hflags : r.flags < 65536)
    (hwhole : ∀ t ∈ r.options, unknownOption t → CopiedWhole t.value.length) : Echoes host w p channelId params r := by
  have hsize := unknownSize_eq hwf hlen params
  have hlong : r.options.length < (r.reader channelId).length + 65537 := by
    have := length_le_encode r.options
    simp only [PeerRequest.reader, List.length_append]
    omega
  obtain ⟨writes, hcopy, hflat⟩ := @copyUnknown_row host (encode r.options).length r.tail
    (by unfold PeerRequest.length at hlen; omega) r.options ((r.reader channelId).length + 65537) 0 hlong
        (Nat.zero_add _) hwhole
  unfold Echoes
  rw [replyTypeError_eq hflags, hcopy, Option.map_some, hflat]
  refine ⟨_, rfl, hsize.symm, fun hcarries => ?_⟩
  obtain ⟨writer, hwriter, hbytes⟩ := createCmd_packets hcarries l2capSignalConfigRsp r.id
    (show (unknownHead (w.channels p) r.flags).length = 6 by simp [unknownHead])
    (show 6 + writes.flatten.length = 6 + r.unknownSize params by rw [hflat, hsize])
  rw [show l2capConfigRspHdrLen = 6 from rfl, hwriter]
  rw [Option.map_some, Option.getD_some, hbytes, hflat]

/-- **The unknown options of a request are given back, whatever follows it, exactly if the inner loop copies each of them
whole.** -/
theorem echoes_iff (host : L2capHost) (w : L2capLink) (p channelId : Nat) (params : ConfigureParams) {r : PeerRequest}
    (hwf : ∀ t ∈ r.options, wellFormedOption t) (hlen : r.length < 65536) (hflags : r.flags < 65536) :
    (∀ tail, Echoes host w p channelId params { r with tail := tail }) ↔
      ∀ t ∈ r.options, unknownOption t → CopiedWhole t.value.length := by
  constructor
  · intro h t ht hu
    by_contra hnot
    -- a row of bytes each of which is an unknown type
    obtain ⟨buffer, hreply, -⟩ := h (0x10 :: List.replicate 225 0x10)
    have hcopied := @replyTypeError_eq host w p channelId { r with tail := 0x10 :: List.replicate 225 0x10 } hflags
    rw [hcopied, Option.map_eq_some_iff] at hreply
    obtain ⟨writes, hcopy, hsent⟩ := hreply
    have hlog := congrArg L2capLink.log hsent
    simp only [L2capLink.send, L2capLink.record, List.append_cancel_left_eq, List.cons.injEq, L2event.emitted.injEq,
      true_and, and_true] at hlog
    have htail : 226 ≤ (0x10 :: List.replicate 225 (0x10 : UInt8)).length := by
      rw [List.length_cons, List.length_replicate]
    exact copyUnknown_wrong (by unfold PeerRequest.length at hlen; omega) (by decide) htail r.options _ 0
      (Nat.zero_add _) ⟨t, ht, hu, hnot⟩ hcopy hlog
  · exact fun h tail => echoes_of_whole hwf hlen hflags h

end Echo

/-- An unknown option of three bytes, a hint, an MTU, and an unknown option of two pieces. -/
def piecesRequest : PeerRequest :=
  ⟨5, 0, [⟨0x10, [1, 2, 3], by decide⟩, ⟨0x90, [], by decide⟩, ⟨1, [0, 2], by decide⟩,
      ⟨0x11, List.replicate 64 7, by simp⟩], []⟩

theorem echoes_iff_pieces : Echoes plainHost acceptedLink 0 0x40 .zero { piecesRequest with tail := [0x10] } :=
  (echoes_iff plainHost acceptedLink 0 0x40 .zero (by decide) (by decide) (by decide)).2 (by decide) [0x10]

/-- An unknown option of 225 bytes. -/
def endlessRequest : PeerRequest := ⟨5, 0, [⟨0x10, List.replicate 225 0, by rw [List.length_replicate]; decide⟩], []⟩

/-- The response to it is never sent. -/
theorem echoes_not_endless : ¬ Echoes plainHost acceptedLink 0 0x40 .zero endlessRequest := by
  rintro ⟨buffer, hreply, -⟩
  have hcopied := @replyTypeError_eq plainHost acceptedLink 0 0x40 endlessRequest (by decide)
  have harea : encode endlessRequest.options ++ endlessRequest.tail = 0x10 :: UInt8.ofNat 225 :: List.replicate 225 0 := by
    simp only [endlessRequest, encode_cons, encode_nil, List.append_nil, Tlv.bytes, List.length_replicate]
  have hpos : 0 < (encode endlessRequest.options).length := by
    simp only [endlessRequest, encode_cons, encode_nil, List.append_nil, Tlv.bytes, List.length_cons]
    omega
  rw [hcopied, harea, copyUnknown_stuck (by decide) (by decide) hpos] at hreply
  cases hreply

end Bte
