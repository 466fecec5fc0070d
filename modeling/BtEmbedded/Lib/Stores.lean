import BtEmbedded.Lib.Bytes
/-!
# Stores — what a program of stores leaves in a block

`Tiles` says of stores that each begins where the one before it ended.  Then nothing but what they store is left in the
places they fill, whatever was there before and in whatever order they are made (`blits_tiles`).
-/
namespace Bytes

/-- The stores fill the places from `i` to `n`, in their order. -/
def Tiles : Nat → Nat → List (Nat × List UInt8) → Prop
  | i, n, [] => i = n
  | i, n, s :: ss => s.1 = i ∧ Tiles (i + s.2.length) n ss

/-- The stores of a program, one after the other. -/
def blits (block : List UInt8) (ss : List (Nat × List UInt8)) : List UInt8 :=
  ss.foldl (fun b s => blit b s.1 s.2) block

/-- One store ends before the other begins. -/
def Apart (s t : Nat × List UInt8) : Prop := s.1 + s.2.length ≤ t.1 ∨ t.1 + t.2.length ≤ s.1

theorem Apart.symm {s t : Nat × List UInt8} (h : Apart s t) : Apart t s := Or.symm h

theorem getElem?_blit {dst src : List UInt8} {off : Nat} (h : off + src.length ≤ dst.length) (k : Nat) :
    (blit dst off src)[k]? = if k < off then dst[k]? else if k < off + src.length then src[k - off]? else dst[k]? := by
  have hfront : (dst.take off ++ src).length = off + src.length := by
    rw [List.length_append, List.length_take, Nat.min_eq_left (by omega)]
  have htake : (dst.take off).length = off := List.length_take_of_le (by omega)
  rw [blit]
  split_ifs with hbefore hwithin
  · rw [List.getElem?_append_left (by omega), List.getElem?_append_left (by omega), List.getElem?_take_of_lt hbefore]
  · rw [List.getElem?_append_left (by omega), List.getElem?_append_right (by omega), htake]
  · rw [List.getElem?_append_right (by omega), hfront, List.getElem?_drop, Nat.add_sub_cancel' (by omega)]

theorem blit_comm {dst : List UInt8} {s t : Nat × List UInt8} (hs : s.1 + s.2.length ≤ dst.length)
    (ht : t.1 + t.2.length ≤ dst.length) (h : Apart s t) :
    blit (blit dst s.1 s.2) t.1 t.2 = blit (blit dst t.1 t.2) s.1 s.2 := by
  have hs' : s.1 + s.2.length ≤ (blit dst t.1 t.2).length := by rwa [length_blit ht]
  have ht' : t.1 + t.2.length ≤ (blit dst s.1 s.2).length := by rwa [length_blit hs]
  refine List.ext_getElem? fun k => ?_
  rw [getElem?_blit ht', getElem?_blit hs, getElem?_blit hs', getElem?_blit ht]
  rcases h with h | h <;> split_ifs <;> first | rfl | omega

theorem blits_perm {ss ts : List (Nat × List UInt8)} (hp : ss.Perm ts) : ∀ {block : List UInt8},
    (∀ s ∈ ss, s.1 + s.2.length ≤ block.length) → ss.Pairwise Apart → blits block ss = blits block ts := by
  induction hp with
  | nil => exact fun _ _ => rfl
  | cons s _ ih =>
    intro block hin hap
    refine ih (fun t ht => ?_) hap.of_cons
    rw [length_blit (hin s List.mem_cons_self)]
    exact hin t (List.mem_cons_of_mem s ht)
  | swap s t l =>
    intro block hin hap
    have hs := hin s (List.mem_cons_of_mem t List.mem_cons_self)
    have ht := hin t List.mem_cons_self
    have h := blit_comm hs ht ((List.pairwise_cons.1 hap).1 s List.mem_cons_self).symm
    simp only [blits, List.foldl_cons, h]
  | trans hp _ ih ih' =>
    intro block hin hap
    rw [ih hin hap]
    exact ih' (fun s hs => hin s (hp.mem_iff.2 hs)) (hp.pairwise hap Apart.symm)

/-! ## Tiles -/

theorem Tiles.le : ∀ {i n : Nat} {ss : List (Nat × List UInt8)}, Tiles i n ss → i ≤ n
  | _, _, [], h => Nat.le_of_eq h
  | i, _, _ :: _, h => Nat.le_trans (Nat.le_add_right i _) (Tiles.le h.2)

theorem Tiles.append : ∀ {i m n : Nat} {ss ts : List (Nat × List UInt8)}, Tiles i m ss → Tiles m n ts →
    Tiles i n (ss ++ ts)
  | _, _, _, [], _, h, h' => by
    cases h
    exact h'
  | _, _, _, _ :: _, _, h, h' => ⟨h.1, h.2.append h'⟩

theorem Tiles.length : ∀ {i n : Nat} {ss : List (Nat × List UInt8)}, Tiles i n ss → i + (ss.flatMap Prod.snd).length = n
  | _, _, [], h => h
  | i, _, s :: _, h => by
    rw [List.flatMap_cons, List.length_append, ← Nat.add_assoc]
    exact h.2.length

/-- The records of a column, `w` bytes each. -/
theorem tiles_column {ρ : Type} {f : ρ → List UInt8} {w : Nat} (hf : ∀ r, (f r).length = w) (base : Nat) :
    ∀ (l : List ρ) (k : Nat), Tiles (base + k * w) (base + (k + l.length) * w)
      ((l.zipIdx k).map fun r => (base + r.2 * w, f r.1))
  | [], _ => rfl
  | r :: l, k => by
    have hnext : base + k * w + (f r).length = base + (k + 1) * w := by rw [hf, Nat.succ_mul, Nat.add_assoc]
    have hend : k + (r :: l).length = k + 1 + l.length := by rw [List.length_cons, Nat.add_assoc, Nat.add_comm 1]
    rw [hend]
    refine ⟨rfl, ?_⟩
    rw [hnext]
    exact tiles_column hf base l (k + 1)

theorem Tiles.within : ∀ {i n : Nat} {ss : List (Nat × List UInt8)}, Tiles i n ss →
    ∀ s ∈ ss, i ≤ s.1 ∧ s.1 + s.2.length ≤ n
  | _, _, [], _, _, hs => nomatch hs
  | i, n, t :: ss, h, s, hs => by
    obtain ⟨rfl, hrest⟩ := h
    rcases List.mem_cons.1 hs with rfl | hs
    · exact ⟨Nat.le_refl _, hrest.le⟩
    · have hw := hrest.within s hs
      omega

theorem Tiles.apart : ∀ {i n : Nat} {ss : List (Nat × List UInt8)}, Tiles i n ss → ss.Pairwise Apart
  | _, _, [], _ => .nil
  | _, _, s :: _, h => by
    obtain ⟨rfl, hrest⟩ := h
    exact .cons (fun t ht => .inl (hrest.within t ht).1) hrest.apart

theorem drop_blit_le {dst src : List UInt8} {off n : Nat} (hoff : off ≤ dst.length) (hn : off + src.length ≤ n) :
    (blit dst off src).drop n = dst.drop n := by
  obtain ⟨k, rfl⟩ := Nat.exists_eq_add_of_le hn
  rw [Nat.add_assoc, ← List.drop_drop, drop_blit hoff, ← List.drop_drop, List.drop_left, List.drop_drop, Nat.add_assoc]

theorem blits_in_order : ∀ {i n : Nat} {ss : List (Nat × List UInt8)} (block : List UInt8), Tiles i n ss →
    n ≤ block.length → blits block ss = block.take i ++ ss.flatMap Prod.snd ++ block.drop n
  | i, n, [], block, h, _ => by
    cases h
    rw [blits, List.foldl_nil, List.flatMap_nil, List.append_nil, List.take_append_drop]
  | i, n, s :: ss, block, h, hn => by
    obtain ⟨rfl, hrest⟩ := h
    have hend := hrest.le
    have hoff : s.1 ≤ block.length := by omega
    have hlen : (blit block s.1 s.2).length = block.length := length_blit (by omega)
    have ih := blits_in_order (blit block s.1 s.2) hrest (by omega)
    rw [blits, List.foldl_cons]
    rw [blits] at ih
    rw [ih, take_add_blit hoff, drop_blit_le hoff hend, List.flatMap_cons, ← List.append_assoc]

/-- **Only what is stored is left where the stores go.** -/
theorem blits_tiles {i n : Nat} {ss ts : List (Nat × List UInt8)} (hp : ts.Perm ss) (h : Tiles i n ss)
    {block : List UInt8} (hn : n ≤ block.length) : blits block ts = block.take i ++ ss.flatMap Prod.snd ++ block.drop n := by
  have hin : ∀ s ∈ ss, s.1 + s.2.length ≤ block.length := fun s hs => Nat.le_trans (h.within s hs).2 hn
  rw [← blits_perm hp.symm hin h.apart, blits_in_order block h hn]

end Bytes
