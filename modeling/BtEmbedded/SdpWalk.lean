import BtEmbedded.SdpReader
/-!
# SdpWalk — the walk over a data element

A walk enters every group it meets, calls `bte_sdp_de_reader_next` until it returns false and leaves; it visits an element
when the cursor comes to it.  The flag that tells the first call of `next` from the others is shared by all levels: after a
group that was left without a child the cursor stays where it is.  So the walk visits every element once, in document
order, exactly when no group inside is empty, and it does not end otherwise (`walk_iff`).
-/
namespace Bte

open Bytes

/-! ## The walk -/

mutual

/-- The offsets visited from the element at the cursor on, and the reader after it; `none` if this takes more than `fuel`
calls. -/
def walkElement : Nat → DeReader → Option (List Nat × DeReader)
  | 0, _ => none
  | fuel + 1, r =>
    match bteSdpDeReaderEnter r with
    | (false, _) => some ([r.offset], r)
    | (true, r') =>
      match walkChildren fuel r' with
      | none => none
      | some (visits, r'') => (bteSdpDeReaderLeave r'').map fun x => (r.offset :: visits, x.2)

def walkChildren : Nat → DeReader → Option (List Nat × DeReader)
  | 0, _ => none
  | fuel + 1, r =>
    match bteSdpDeReaderNext r with
    | (false, r') => some ([], r')
    | (true, r') =>
      match walkElement fuel r' with
      | none => none
      | some (visits, r'') => (walkChildren fuel r'').map fun x => (visits ++ x.1, x.2)

end

mutual

/-- The offsets of the elements of a tree, in document order. -/
def Element.offsets (off : Nat) : Element → List Nat
  | .leaf _ => [off]
  | .group k w ts => off :: elementOffsets (off + (groupHeader k w (encodeElements ts).length).length) ts

def elementOffsets (off : Nat) : List Element → List Nat
  | [] => []
  | t :: ts => t.offsets off ++ elementOffsets (off + t.encode.length) ts

end

mutual

/-- The element is no empty group, nor has it one inside. -/
def Element.Full : Element → Prop
  | .leaf _ => True
  | .group _ _ ts => ts ≠ [] ∧ ElementsFull ts

def ElementsFull : List Element → Prop
  | [] => True
  | t :: ts => t.Full ∧ ElementsFull ts

end

/-- No group strictly inside is empty. -/
def Element.FullInside : Element → Prop
  | .leaf _ => True
  | .group _ _ ts => ElementsFull ts

/-! ## Document order -/

mutual

theorem Element.offsets_spec : ∀ (t : Element) (off : Nat), t.WellFormed →
    (t.offsets off).Pairwise (· < ·) ∧ ∀ o ∈ t.offsets off, off ≤ o ∧ o < off + t.encode.length
  | .leaf bs, off, h => by
    have hpos := LeafBytes.length_pos h
    refine ⟨List.pairwise_singleton _ _, fun o ho => ?_⟩
    rw [Element.offsets, List.mem_singleton] at ho
    rw [Element.encode]
    omega
  | .group k w ts, off, h => by
    have hhdr := groupHeader_length k w (encodeElements ts).length
    obtain ⟨hsorted, hrange⟩ := elementOffsets_spec ts (off + (groupHeader k w (encodeElements ts).length).length) h.2
    rw [Element.offsets, Element.encode, List.length_append]
    refine ⟨List.pairwise_cons.2 ⟨fun o ho => ?_, hsorted⟩, fun o ho => ?_⟩
    · have := (hrange o ho).1
      omega
    · rcases List.mem_cons.1 ho with rfl | ho
      · omega
      · have := hrange o ho
        omega

theorem elementOffsets_spec : ∀ (ts : List Element) (off : Nat), ElementsWellFormed ts →
    (elementOffsets off ts).Pairwise (· < ·) ∧ ∀ o ∈ elementOffsets off ts, off ≤ o ∧ o < off + (encodeElements ts).length
  | [], _, _ => ⟨List.Pairwise.nil, fun _ h => by cases h⟩
  | t :: ts, off, h => by
    obtain ⟨hs1, hr1⟩ := Element.offsets_spec t off h.1
    obtain ⟨hs2, hr2⟩ := elementOffsets_spec ts (off + t.encode.length) h.2
    rw [elementOffsets, encodeElements, List.length_append]
    refine ⟨List.pairwise_append.2 ⟨hs1, hs2, fun a ha b hb => ?_⟩, fun o ho => ?_⟩
    · have := hr1 a ha
      have := hr2 b hb
      omega
    · rcases List.mem_append.1 ho with ho | ho
      · have := hr1 o ho
        omega
      · have := hr2 o ho
        omega

end

/-! ## More fuel changes nothing -/

mutual

theorem walkElement_mono : ∀ (n : Nat) (r : DeReader) (x : List Nat × DeReader), walkElement n r = some x →
    ∀ m, n ≤ m → walkElement m r = some x
  | 0, _, _, h, _, _ => by cases h
  | n + 1, r, x, h, 0, hm => by omega
  | n + 1, r, x, h, m + 1, hm => by
    rw [walkElement] at h ⊢
    split
    · rename_i r' hr
      rw [hr] at h
      exact h
    · rename_i r' hr
      rw [hr] at h
      simp only at h
      cases hc : walkChildren n r' with
      | none => rw [hc] at h; cases h
      | some y =>
        rw [hc] at h
        rw [walkChildren_mono n r' y hc m (by omega)]
        exact h

theorem walkChildren_mono : ∀ (n : Nat) (r : DeReader) (x : List Nat × DeReader), walkChildren n r = some x →
    ∀ m, n ≤ m → walkChildren m r = some x
  | 0, _, _, h, _, _ => by cases h
  | n + 1, r, x, h, 0, hm => by omega
  | n + 1, r, x, h, m + 1, hm => by
    rw [walkChildren] at h ⊢
    split
    · rename_i r' hr
      rw [hr] at h
      exact h
    · rename_i r' hr
      rw [hr] at h
      simp only at h
      cases he : walkElement n r' with
      | none => rw [he] at h; cases h
      | some y =>
        rw [he] at h
        simp only at h
        rw [walkElement_mono n r' y he m (by omega)]
        simp only
        cases hc : walkChildren n y.2 with
        | none => rw [hc] at h; cases h
        | some z =>
          rw [hc] at h
          rw [walkChildren_mono n y.2 z hc m (by omega)]
          exact h

end

/-- Two runs that end give the same. -/
theorem walkElement_unique {n m : Nat} {r : DeReader} {x y : List Nat × DeReader} (hx : walkElement n r = some x)
    (hy : walkElement m r = some y) : x = y := by
  have h1 := walkElement_mono n r x hx (max n m) (Nat.le_max_left ..)
  have h2 := walkElement_mono m r y hy (max n m) (Nat.le_max_right ..)
  rw [h1] at h2
  exact Option.some.inj h2

/-! ## Where no group is empty -/

section Walk

variable {de : List UInt8}

theorem stack_push {f : Frame} {fs : List Frame} (h : Stack de (f :: fs)) {k : GroupKind} {w : LenWidth} {ts : List Element}
    (ht : f.children[f.index]? = some (.group k w ts)) : Stack de (⟨f.offset, k, w, ts, 0⟩ :: f :: fs) :=
  .push f _ fs h ht rfl (Nat.zero_le _)

theorem offset_first (start : Nat) (k : GroupKind) (w : LenWidth) (ts : List Element) :
    (Frame.mk start k w ts 0).offset = start + (groupHeader k w (encodeElements ts).length).length := by
  simp [Frame.offset, Frame.headerSize, encodeElements]

/-- One child: the reader comes to it, walks it and goes on. -/
theorem walkChildren_cons {n m : Nat} {r r' r'' : DeReader} {visits : List Nat} {x : List Nat × DeReader}
    (hnext : bteSdpDeReaderNext r = (true, r')) (hel : walkElement n r' = some (visits, r''))
    (hrest : walkChildren m r'' = some x) : walkChildren (max n m + 1) r = some (visits ++ x.1, x.2) := by
  rw [walkChildren, hnext]
  simp only [walkElement_mono n r' _ hel _ (Nat.le_max_left ..), walkChildren_mono m r'' _ hrest _ (Nat.le_max_right ..),
    Option.map_some]

mutual

/-- An element without empty groups is walked through, and the reader is back at it. -/
theorem walkElement_full : ∀ (t : Element) {f : Frame} {fs : List Frame}, Stack de (f :: fs) →
    f.children[f.index]? = some t → t.Full → (f :: fs).length + t.nesting ≤ 255 →
    ∃ n, walkElement n (readerOf de true (f :: fs)) = some (t.offsets f.offset, readerOf de true (f :: fs))
  | .leaf bs, f, fs, h, ht, _, _ => by
    refine ⟨1, ?_⟩
    rw [walkElement, enter_leaf h true ht]
    rfl
  | .group k w ts, f, fs, h, ht, hfull, hn => by
    rw [Element.nesting] at hn
    obtain ⟨n, hwalk⟩ := walkStart_full ts (stack_push h ht) rfl rfl hfull.1 hfull.2
      (by simp only [List.length_cons] at hn ⊢; omega)
    refine ⟨n + 1, ?_⟩
    have hstack := (stack_push h ht).moved (i := ts.length) (Nat.le_refl _)
    rw [walkElement, enter_group h true ht (by omega)]
    simp only [hwalk, leave_frame hstack (by omega) true, Option.map_some, Element.offsets, offset_first]
    rfl

/-- The children of a group just entered. -/
theorem walkStart_full : ∀ (ts : List Element) {f : Frame} {fs : List Frame}, Stack de (f :: fs) → f.children = ts →
    f.index = 0 → ts ≠ [] → ElementsFull ts → (f :: fs).length + nestingElements ts ≤ 255 →
    ∃ n, walkChildren n (readerOf de false (f :: fs)) =
      some (elementOffsets f.offset ts, readerOf de true ({ f with index := ts.length } :: fs))
  | [], _, _, _, _, _, hne, _, _ => absurd rfl hne
  | t :: ts, f, fs, h, hts, hi, _, hfull, hn => by
    rw [nestingElements] at hn
    have ht : f.children[f.index]? = some t := by rw [hts, hi]; rfl
    have hnext := next_first h (by rw [hts, hi]; simp)
    obtain ⟨n, hel⟩ := walkElement_full t h ht hfull.1 (by omega)
    obtain ⟨m, hrest⟩ := walkRest_full ts h (by rw [hts, hi]; simp) (by rw [hts, hi]; rfl) hfull.2 (by omega)
    refine ⟨max n m + 1, ?_⟩
    rw [walkChildren_cons hnext hel hrest, elementOffsets, (h.lies.child ht).2.2.2, hts]

/-- The children after the one at the cursor. -/
theorem walkRest_full : ∀ (ts : List Element) {f : Frame} {fs : List Frame}, Stack de (f :: fs) →
    f.index < f.children.length → f.children.drop (f.index + 1) = ts → ElementsFull ts →
    (f :: fs).length + nestingElements ts ≤ 255 →
    ∃ n, walkChildren n (readerOf de true (f :: fs)) =
      some (elementOffsets { f with index := f.index + 1 }.offset ts,
        readerOf de true ({ f with index := f.children.length } :: fs))
  | [], f, fs, h, hi, hdrop, _, _ => by
    have hlen : f.index + 1 = f.children.length := by
      have := List.drop_eq_nil_iff.1 hdrop
      omega
    refine ⟨1, ?_⟩
    have hnext := next_more h hi
    rw [hlen, decide_eq_false (by omega)] at hnext
    rw [walkChildren, hnext]
    rfl
  | t :: ts, f, fs, h, hi, hdrop, hfull, hn => by
    rw [nestingElements] at hn
    have hi' : f.index + 1 < f.children.length := by
      have := congrArg List.length hdrop
      simp only [List.length_drop, List.length_cons] at this
      omega
    have ht : f.children[f.index + 1]? = some t := by
      rw [← List.head?_drop, hdrop]
      rfl
    have hdrop' : f.children.drop (f.index + 1 + 1) = ts := by
      rw [← List.drop_drop, hdrop]
      rfl
    have hnext := next_more h hi
    rw [decide_eq_true hi'] at hnext
    have hmoved := h.moved (i := f.index + 1) (by omega)
    obtain ⟨n, hel⟩ := walkElement_full t hmoved ht hfull.1 (by simp only [List.length_cons] at hn ⊢; omega)
    obtain ⟨m, hrest⟩ := walkRest_full ts hmoved hi' hdrop' hfull.2 (by simp only [List.length_cons] at hn ⊢; omega)
    refine ⟨max n m + 1, ?_⟩
    rw [walkChildren_cons hnext hel hrest, elementOffsets, (hmoved.lies.child ht).2.2.2]

end

/-! ## Where a group is empty -/

/-- An empty group is left with the flag cleared. -/
theorem walkElement_empty {f : Frame} {fs : List Frame} (h : Stack de (f :: fs)) {k : GroupKind} {w : LenWidth}
    (ht : f.children[f.index]? = some (.group k w [])) (hn : (f :: fs).length < 255) (b : Bool) (n : Nat) :
    walkElement n (readerOf de b (f :: fs)) = none ∨
    walkElement n (readerOf de b (f :: fs)) = some ([f.offset], readerOf de false (f :: fs)) := by
  match n with
  | 0 => exact .inl rfl
  | 1 =>
    rw [walkElement, enter_group h b ht hn]
    exact .inl rfl
  | n + 2 =>
    right
    have hnext := next_end (stack_push h ht) false rfl
    rw [walkElement, enter_group h b ht hn]
    simp only [walkChildren, hnext, leave_frame (stack_push h ht) hn false, Option.map_some]
    rfl

/-- With the flag cleared `next` comes to the same empty group again, and so for ever. -/
theorem walkChildren_empty {f : Frame} {fs : List Frame} (h : Stack de (f :: fs)) {k : GroupKind} {w : LenWidth}
    (ht : f.children[f.index]? = some (.group k w [])) (hn : (f :: fs).length < 255) :
    ∀ n, walkChildren n (readerOf de false (f :: fs)) = none
  | 0 => rfl
  | n + 1 => by
    obtain ⟨hi, -⟩ := List.getElem?_eq_some_iff.1 ht
    have hnext := next_first h hi
    rw [walkChildren, hnext]
    rcases walkElement_empty h ht hn true n with hel | hel
    · simp only [hel]
    · simp only [hel, walkChildren_empty h ht hn n, Option.map_none]

/-- The walk gets stuck at a child, or behind it. -/
theorem walkChildren_none {r r' : DeReader} (hnext : bteSdpDeReaderNext r = (true, r'))
    (h : ∀ n, walkElement n r' = none ∨ ∃ x, walkElement n r' = some x ∧ ∀ m, walkChildren m x.2 = none) :
    ∀ n, walkChildren n r = none
  | 0 => rfl
  | n + 1 => by
    rw [walkChildren, hnext]
    rcases h n with hel | ⟨x, hel, hrest⟩
    · simp only [hel]
    · simp only [hel, hrest, Option.map_none]

mutual

/-- At a child that is an empty group, or has one inside, the walk does not come to an end. -/
theorem walkElement_notFull : ∀ (t : Element) {f : Frame} {fs : List Frame}, Stack de (f :: fs) →
    f.children[f.index]? = some t → ¬ t.Full → (f :: fs).length + t.nesting ≤ 255 →
    ∀ n, walkElement n (readerOf de true (f :: fs)) = none ∨
      ∃ x, walkElement n (readerOf de true (f :: fs)) = some x ∧ ∀ m, walkChildren m x.2 = none
  | .leaf bs, _, _, _, _, hfull, _ => absurd trivial hfull
  | .group k w [], f, fs, h, ht, _, hn => by
    intro n
    rw [Element.nesting] at hn
    rcases walkElement_empty h ht (by omega) true n with hel | hel
    · exact .inl hel
    · exact .inr ⟨_, hel, walkChildren_empty h ht (by omega)⟩
  | .group k w (t :: ts), f, fs, h, ht, hfull, hn => by
    rw [Element.nesting] at hn
    have hbad : ¬ ElementsFull (t :: ts) := fun hf => hfull ⟨List.cons_ne_nil t ts, hf⟩
    have hwalk := walkStart_notFull (t :: ts) (stack_push h ht) rfl rfl hbad
      (by simp only [List.length_cons] at hn ⊢; omega)
    intro n
    left
    cases n with
    | zero => rfl
    | succ n =>
      rw [walkElement, enter_group h true ht (by omega)]
      simp only [hwalk]

theorem walkStart_notFull : ∀ (ts : List Element) {f : Frame} {fs : List Frame}, Stack de (f :: fs) → f.children = ts →
    f.index = 0 → ¬ ElementsFull ts → (f :: fs).length + nestingElements ts ≤ 255 →
    ∀ n, walkChildren n (readerOf de false (f :: fs)) = none
  | [], _, _, _, _, _, hbad, _ => absurd trivial hbad
  | t :: ts, f, fs, h, hts, hi, hbad, hn => by
    rw [nestingElements] at hn
    have ht : f.children[f.index]? = some t := by rw [hts, hi]; rfl
    have hnext := next_first h (by rw [hts, hi]; simp)
    refine walkChildren_none hnext ?_
    by_cases hfull : t.Full
    · obtain ⟨m, hm⟩ := walkElement_full t h ht hfull (by omega)
      have hrest := walkRest_notFull ts h (by rw [hts, hi]; simp) (by rw [hts, hi]; rfl) (fun hf => hbad ⟨hfull, hf⟩)
        (by omega)
      intro n
      cases hel : walkElement n (readerOf de true (f :: fs)) with
      | none => exact .inl rfl
      | some x => exact .inr ⟨x, rfl, by rw [walkElement_unique hel hm]; exact hrest⟩
    · exact walkElement_notFull t h ht hfull (by omega)

theorem walkRest_notFull : ∀ (ts : List Element) {f : Frame} {fs : List Frame}, Stack de (f :: fs) →
    f.index < f.children.length → f.children.drop (f.index + 1) = ts → ¬ ElementsFull ts →
    (f :: fs).length + nestingElements ts ≤ 255 → ∀ n, walkChildren n (readerOf de true (f :: fs)) = none
  | [], _, _, _, _, _, hbad, _ => absurd trivial hbad
  | t :: ts, f, fs, h, hi, hdrop, hbad, hn => by
    rw [nestingElements] at hn
    have hi' : f.index + 1 < f.children.length := by
      have := congrArg List.length hdrop
      simp only [List.length_drop, List.length_cons] at this
      omega
    have ht : f.children[f.index + 1]? = some t := by
      rw [← List.head?_drop, hdrop]
      rfl
    have hdrop' : f.children.drop (f.index + 1 + 1) = ts := by
      rw [← List.drop_drop, hdrop]
      rfl
    have hnext := next_more h hi
    rw [decide_eq_true hi'] at hnext
    have hmoved := h.moved (i := f.index + 1) (by omega)
    have hn' : ({ f with index := f.index + 1 } :: fs).length + max t.nesting (nestingElements ts) ≤ 255 := hn
    refine walkChildren_none hnext ?_
    by_cases hfull : t.Full
    · obtain ⟨m, hm⟩ := walkElement_full t hmoved ht hfull (by omega)
      have hrest := walkRest_notFull ts hmoved hi' hdrop' (fun hf => hbad ⟨hfull, hf⟩) (by omega)
      intro n
      cases hel : walkElement n (readerOf de true ({ f with index := f.index + 1 } :: fs)) with
      | none => exact .inl rfl
      | some x => exact .inr ⟨x, rfl, by rw [walkElement_unique hel hm]; exact hrest⟩
    · exact walkElement_notFull t hmoved ht hfull (by omega)

end

/-- The whole walk, where no group inside is empty. -/
theorem walk_full (t : Element) (tail : List UInt8) (hw : t.WellFormed) (hlen : t.encode.length < 2 ^ 31)
    (hn : t.nesting < 256) (hfull : t.FullInside) :
    ∃ n r, walkElement n (bteSdpDeReaderInit (t.encode ++ tail)) = some (t.offsets 0, r) := by
  cases t with
  | leaf bs =>
    refine ⟨1, readerOf (bs ++ tail) false [], ?_⟩
    have henter := enter_root_leaf false tail hw
    show walkElement 1 (readerOf (bs ++ tail) false []) = _
    rw [walkElement, henter]
    rfl
  | group k w ts =>
    have henter := enter_root_group false tail hw hlen
    have hstack := stack_root tail hw hlen
    rw [Element.nesting] at hn
    have hchildren : ∃ n b, walkChildren n (readerOf ((Element.group k w ts).encode ++ tail) false [⟨0, k, w, ts, 0⟩]) =
        some (elementOffsets (Frame.mk 0 k w ts 0).offset ts,
          readerOf ((Element.group k w ts).encode ++ tail) b [⟨0, k, w, ts, ts.length⟩]) := by
      by_cases hts : ts = []
      · subst hts
        have hnext := next_end hstack false rfl
        refine ⟨1, false, ?_⟩
        rw [walkChildren, hnext]
        rfl
      · obtain ⟨n, hwalk⟩ :=
          walkStart_full ts hstack rfl rfl hts hfull (by simp only [List.length_cons, List.length_nil]; omega)
        exact ⟨n, true, hwalk⟩
    obtain ⟨n, b, hchildren⟩ := hchildren
    have hleave := leave_root (hstack.moved (i := ts.length) (Nat.le_refl _)) b
    refine ⟨n + 1, readerOf ((Element.group k w ts).encode ++ tail) b [], ?_⟩
    show walkElement (n + 1) (readerOf ((Element.group k w ts).encode ++ tail) false []) = _
    rw [walkElement, henter]
    simp only [hchildren, hleave, Option.map_some, Element.offsets, offset_first]
    rfl

/-- It does not end where one is. -/
theorem walk_notFull (t : Element) (tail : List UInt8) (hw : t.WellFormed) (hlen : t.encode.length < 2 ^ 31)
    (hn : t.nesting < 256) (hfull : ¬ t.FullInside) :
    ∀ n, walkElement n (bteSdpDeReaderInit (t.encode ++ tail)) = none := by
  cases t with
  | leaf bs => exact absurd trivial hfull
  | group k w ts =>
    rw [Element.nesting] at hn
    have hwalk := walkStart_notFull ts (stack_root tail hw hlen) rfl rfl hfull
      (by simp only [List.length_cons, List.length_nil]; omega)
    intro n
    cases n with
    | zero => rfl
    | succ n =>
      show walkElement (n + 1) (readerOf ((Element.group k w ts).encode ++ tail) false []) = none
      rw [walkElement, enter_root_group false tail hw hlen]
      simp only [hwalk]

end Walk

/-! ## Any use of the reader -/

inductive ReaderOp
  | next | enter | leave
deriving DecidableEq

def ReaderOp.apply (r : DeReader) : ReaderOp → Option DeReader
  | .next => some (bteSdpDeReaderNext r).2
  | .enter => some (bteSdpDeReaderEnter r).2
  | .leave => (bteSdpDeReaderLeave r).map Prod.snd

def runReader : DeReader → List ReaderOp → Option DeReader
  | r, [] => some r
  | r, op :: ops => (op.apply r).bind fun r' => runReader r' ops

/-- The starts of the groups that are entered, the innermost first. -/
def ReaderOp.entered (r : DeReader) (starts : List Nat) : ReaderOp → List Nat
  | .next => starts
  | .enter => if (bteSdpDeReaderEnter r).1 then r.offset :: starts else starts
  | .leave => starts.tail

def enteredBy : DeReader → List Nat → List ReaderOp → List Nat
  | _, starts, [] => starts
  | r, starts, op :: ops => (op.apply r).elim starts fun r' => enteredBy r' (op.entered r starts) ops

/-- There is an element under the cursor. -/
def DeReader.OnElement (r : DeReader) : Prop := r.depth = 0 ∨ r.offset < r.seqEnd

/-- Only elements are entered, and the reader does not come back from the depth `floor`. -/
def Proper (floor : Nat) : DeReader → List ReaderOp → Prop
  | _, [] => True
  | r, op :: ops => (op = .enter → r.OnElement) ∧ (op = .leave → floor < r.depth ∨ r.depth = 0) ∧
      ∀ r', op.apply r = some r' → Proper floor r' ops

instance (r : DeReader) : Decidable r.OnElement := inferInstanceAs (Decidable (_ ∨ _))

instance decidableProper (floor : Nat) : ∀ (r : DeReader) (ops : List ReaderOp), Decidable (Proper floor r ops)
  | _, [] => .isTrue trivial
  | r, op :: ops =>
    haveI : Decidable (∀ r', op.apply r = some r' → Proper floor r' ops) :=
      match h : op.apply r with
      | none => .isTrue fun _ h' => nomatch h'
      | some r' => haveI := decidableProper floor r' ops; decidable_of_iff (Proper floor r' ops) (by simp)
    inferInstanceAs (Decidable (_ ∧ _ ∧ _))

/-- `next` goes from where `r` was to the following sibling, or there is none. -/
def MovesOn (r r' : DeReader) : Prop :=
  bteSdpDeReaderNext r' =
    if r.depth = 0 then (false, r')
    else
      (decide (r.offset + bteSdpDeGetTotalSize (r.de.drop r.offset) < r.seqEnd),
        { r with offset := r.offset + bteSdpDeGetTotalSize (r.de.drop r.offset), nextCalled := true })

section Use

variable {t : Element} {de : List UInt8}

/-- A stack of groups of `t`, and how deep it can still go from each of them. -/
def StackOf (t : Element) (de : List UInt8) : List Frame → Prop
  | [] => True
  | f :: fs => Stack de (f :: fs) ∧ (f :: fs).length + nestingElements f.children ≤ t.nesting ∧ StackOf t de fs

/-- A property of stacks that the operations keep, as long as nothing up to depth `floor` is left. -/
structure StackRule (floor : Nat) (K : List Frame → Prop) : Prop where
  move : ∀ f fs i, K (f :: fs) → K ({ f with index := i } :: fs)
  push : ∀ g fs, K fs → K (g :: fs)
  pop : ∀ f fs, floor < (f :: fs).length → K (f :: fs) → K fs

theorem nesting_child : ∀ {ts : List Element} {i : Nat} {u : Element}, ts[i]? = some u → u.nesting ≤ nestingElements ts
  | [], _, _, h => by simp at h
  | v :: ts, 0, u, h => by
    simp only [List.getElem?_cons_zero, Option.some.injEq] at h
    rw [nestingElements, h]
    omega
  | v :: ts, i + 1, u, h => by
    have hle : u.nesting ≤ nestingElements ts := nesting_child (i := i) (by simpa using h)
    rw [nestingElements]
    omega

theorem onElement_readerOf {f : Frame} {fs : List Frame} (h : Stack de (f :: fs)) {b : Bool}
    (he : (readerOf de b (f :: fs)).OnElement) : f.index < f.children.length := by
  rcases he with h0 | hlt
  · simp [readerOf] at h0
  · rw [seqEnd_readerOf h b] at hlt
    exact (offset_lt_iff h).1 hlt

/-- **One operation**: the reader stands on a stack again. -/
theorem apply_stack {tail : List UInt8} (hde : de = t.encode ++ tail) (hw : t.WellFormed) (hlen : t.encode.length < 2 ^ 31)
    (hn : t.nesting < 256) {floor : Nat} {K : List Frame → Prop} (hK : StackRule floor K) {stack : List Frame} {b : Bool}
    (hstack : StackOf t de stack) (hk : K stack) (op : ReaderOp) (henter : op = .enter → (readerOf de b stack).OnElement)
    (hleave : op = .leave → floor < (readerOf de b stack).depth ∨ (readerOf de b stack).depth = 0) :
    ∃ b' stack', op.apply (readerOf de b stack) = some (readerOf de b' stack') ∧ StackOf t de stack' ∧ K stack' ∧
      op.entered (readerOf de b stack) (stack.map Frame.start) = stack'.map Frame.start := by
  cases stack with
  | nil =>
    cases op with
    | next => exact ⟨b, [], rfl, trivial, hk, rfl⟩
    | leave => exact ⟨b, [], rfl, trivial, hk, rfl⟩
    | enter =>
      subst hde
      cases t with
      | leaf bs =>
        have he := enter_root_leaf b tail hw
        exact ⟨b, [], by rw [ReaderOp.apply]; exact congrArg (some ∘ Prod.snd) he, trivial, hk,
          if_neg (by rw [Element.encode, he]; simp)⟩
      | group k w ts =>
        have he := enter_root_group b tail hw hlen
        refine ⟨false, [⟨0, k, w, ts, 0⟩], by rw [ReaderOp.apply, he], ⟨stack_root tail hw hlen, ?_, trivial⟩,
          hK.push _ _ hk, if_pos (by rw [he])⟩
        simp only [Element.nesting, List.length_cons, List.length_nil]
        omega
  | cons f fs =>
    obtain ⟨hs, hroom, hfs⟩ := hstack
    cases op with
    | next =>
      have hle := hs.lies.index_le
      by_cases hi : f.index = f.children.length
      · exact ⟨b, f :: fs, by rw [ReaderOp.apply, next_end hs b hi], ⟨hs, hroom, hfs⟩, hk, rfl⟩
      · cases b with
        | false => exact ⟨true, f :: fs, by rw [ReaderOp.apply, next_first hs (by omega)], ⟨hs, hroom, hfs⟩, hk, rfl⟩
        | true =>
          exact ⟨true, { f with index := f.index + 1 } :: fs, by rw [ReaderOp.apply, next_more hs (by omega)],
            ⟨hs.moved (by omega), hroom, hfs⟩, hK.move _ _ _ hk, rfl⟩
    | enter =>
      have hi := onElement_readerOf hs (henter rfl)
      cases ht : f.children[f.index] with
      | leaf bs =>
        have ht' : f.children[f.index]? = some (.leaf bs) := by rw [List.getElem?_eq_getElem hi, ht]
        have he := enter_leaf hs b ht'
        exact ⟨b, f :: fs, by rw [ReaderOp.apply, he], ⟨hs, hroom, hfs⟩, hk, if_neg (by rw [he]; simp)⟩
      | group k w ts =>
        have ht' : f.children[f.index]? = some (.group k w ts) := by rw [List.getElem?_eq_getElem hi, ht]
        have hnest := nesting_child ht'
        rw [Element.nesting] at hnest
        have he := enter_group hs b ht' (by omega)
        refine ⟨false, ⟨f.offset, k, w, ts, 0⟩ :: f :: fs, by rw [ReaderOp.apply, he],
          ⟨stack_push hs ht', ?_, hs, hroom, hfs⟩, hK.push _ _ hk, if_pos (by rw [he])⟩
        simp only [List.length_cons] at hroom ⊢
        omega
    | leave =>
      have hfloor : floor < (f :: fs).length := by
        rcases hleave rfl with h1 | h1
        · exact h1
        · simp [readerOf] at h1
      cases fs with
      | nil => exact ⟨b, [], by rw [ReaderOp.apply, leave_root hs b]; rfl, trivial, hK.pop _ _ hfloor hk, rfl⟩
      | cons p ps =>
        simp only [List.length_cons] at hroom
        exact ⟨b, p :: ps, by rw [ReaderOp.apply, leave_frame hs (by simp only [List.length_cons]; omega) b]; rfl,
          hfs, hK.pop _ _ hfloor hk, rfl⟩

/-- **Any proper use of the reader comes to an end**, on a stack of groups of the element. -/
theorem run_stack {tail : List UInt8} (hde : de = t.encode ++ tail) (hw : t.WellFormed) (hlen : t.encode.length < 2 ^ 31)
    (hn : t.nesting < 256) {floor : Nat} {K : List Frame → Prop} (hK : StackRule floor K) :
    ∀ (ops : List ReaderOp) (stack : List Frame) (b : Bool), StackOf t de stack → K stack →
      Proper floor (readerOf de b stack) ops →
      ∃ b' stack', runReader (readerOf de b stack) ops = some (readerOf de b' stack') ∧ StackOf t de stack' ∧ K stack' ∧
        enteredBy (readerOf de b stack) (stack.map Frame.start) ops = stack'.map Frame.start
  | [], stack, b, hstack, hk, _ => ⟨b, stack, rfl, hstack, hk, rfl⟩
  | op :: ops, stack, b, hstack, hk, hproper => by
    obtain ⟨b', stack', happly, hstack', hk', hentered⟩ :=
      apply_stack hde hw hlen hn hK hstack hk op hproper.1 hproper.2.1
    rw [runReader, enteredBy, happly, Option.elim_some, hentered]
    exact run_stack hde hw hlen hn hK ops _ _ hstack' hk' (hproper.2.2 _ happly)

/-- Nothing below the group entered on `base` is left. -/
theorem stackRule_above (base : List Frame) : StackRule (base.length + 1) fun stack =>
    ∃ top g, stack = top ++ g :: base where
  move := by
    rintro f fs i ⟨top, g, h⟩
    cases top with
    | nil =>
      obtain ⟨rfl, rfl⟩ := List.cons.inj h
      exact ⟨[], _, rfl⟩
    | cons x top =>
      obtain ⟨rfl, rfl⟩ := List.cons.inj h
      exact ⟨_ :: top, g, rfl⟩
  push := by
    rintro g fs ⟨top, g', rfl⟩
    exact ⟨g :: top, g', rfl⟩
  pop := by
    rintro f fs hlen ⟨top, g, h⟩
    cases top with
    | nil =>
      obtain ⟨rfl, rfl⟩ := List.cons.inj h
      simp at hlen
    | cons x top =>
      obtain ⟨rfl, rfl⟩ := List.cons.inj h
      exact ⟨top, g, rfl⟩

theorem stackRule_any : StackRule 0 fun _ => True := ⟨fun _ _ _ _ => trivial, fun _ _ _ => trivial, fun _ _ _ _ => trivial⟩

/-- The stack the reader is on after it entered the element under the cursor. -/
theorem entered_stack {tail : List UInt8} (hde : de = t.encode ++ tail) (hw : t.WellFormed) (hlen : t.encode.length < 2 ^ 31)
    (hn : t.nesting < 256) {stack : List Frame} {b : Bool} {r : DeReader} (hstack : StackOf t de stack)
    (hon : (readerOf de b stack).OnElement) (henter : bteSdpDeReaderEnter (readerOf de b stack) = (true, r)) :
    ∃ g, r = readerOf de false (g :: stack) ∧ StackOf t de (g :: stack) := by
  cases stack with
  | nil =>
    subst hde
    cases t with
    | leaf bs =>
      have he := enter_root_leaf b tail hw
      rw [Element.encode, he] at henter
      cases henter
    | group k w ts =>
      rw [enter_root_group b tail hw hlen] at henter
      cases henter
      refine ⟨⟨0, k, w, ts, 0⟩, rfl, stack_root tail hw hlen, ?_, trivial⟩
      simp only [Element.nesting, List.length_cons, List.length_nil]
      omega
  | cons f fs =>
    obtain ⟨hs, hroom, hfs⟩ := hstack
    have hi := onElement_readerOf hs hon
    cases ht : f.children[f.index] with
    | leaf bs =>
      have ht' : f.children[f.index]? = some (.leaf bs) := by rw [List.getElem?_eq_getElem hi, ht]
      rw [enter_leaf hs b ht'] at henter
      cases henter
    | group k w ts =>
      have ht' : f.children[f.index]? = some (.group k w ts) := by rw [List.getElem?_eq_getElem hi, ht]
      have hnest := nesting_child ht'
      rw [Element.nesting] at hnest
      rw [enter_group hs b ht' (by omega)] at henter
      cases henter
      refine ⟨⟨f.offset, k, w, ts, 0⟩, rfl, stack_push hs ht', ?_, hs, hroom, hfs⟩
      simp only [List.length_cons] at hroom ⊢
      omega

/-- **What is entered and left again leaves the stack as it was**, whatever was done inside. -/
theorem left_stack {tail : List UInt8} (hde : de = t.encode ++ tail) (hw : t.WellFormed) (hlen : t.encode.length < 2 ^ 31)
    (hn : t.nesting < 256) {stack : List Frame} {b : Bool} {r₁ : DeReader} (hstack : StackOf t de stack)
    (hon : (readerOf de b stack).OnElement) (henter : bteSdpDeReaderEnter (readerOf de b stack) = (true, r₁))
    {inside : List ReaderOp} (hinside : Proper r₁.depth r₁ inside) :
    ∃ r₂, runReader r₁ inside = some r₂ ∧ (r₂.depth = r₁.depth →
      bteSdpDeReaderLeave r₂ = some (true, readerOf de r₂.nextCalled stack)) := by
  obtain ⟨g, rfl, hg⟩ := entered_stack hde hw hlen hn hstack hon henter
  obtain ⟨b₂, stack₂, hrun, hstack₂, ⟨top, g₂, rfl⟩, -⟩ := run_stack hde hw hlen hn (stackRule_above stack) inside _ _ hg
    ⟨[], g, rfl⟩ hinside
  refine ⟨_, hrun, fun hdepth => ?_⟩
  have htop : top = [] := by
    cases top with
    | nil => rfl
    | cons x top =>
      simp only [List.cons_append, readerOf, List.length_cons, List.length_append] at hdepth
      omega
  subst htop
  have hroom := hstack₂.2.1
  simp only [List.length_cons] at hroom
  cases stack with
  | nil => exact leave_root hstack₂.1 b₂
  | cons f fs => exact leave_frame hstack₂.1 (by simp only [List.length_cons] at hroom ⊢; omega) b₂

/-- Back at a group, `next` goes on exactly when the flag is set. -/
theorem movesOn_iff {stack : List Frame} {b b' : Bool} (hstack : StackOf t de stack)
    (hon : (readerOf de b stack).OnElement) :
    MovesOn (readerOf de b stack) (readerOf de b' stack) ↔ (readerOf de b stack).depth = 0 ∨ b' = true := by
  cases stack with
  | nil => exact ⟨fun _ => .inl rfl, fun _ => rfl⟩
  | cons f fs =>
    obtain ⟨hs, -, -⟩ := hstack
    have hi := onElement_readerOf hs hon
    obtain ⟨u, hu⟩ : ∃ u, f.children[f.index]? = some u := ⟨_, List.getElem?_eq_getElem hi⟩
    obtain ⟨⟨rest, hrest⟩, hwu, hle, hnext⟩ := hs.lies.child hu
    have hsmall := hs.lies.small
    have hpos := Element.one_le_encode hwu
    have hsize : bteSdpDeGetTotalSize (de.drop f.offset) = u.encode.length := by
      rw [hrest]
      exact Element.totalSize hwu (by omega) rest
    unfold MovesOn
    rw [if_neg (by simp [readerOf]), seqEnd_readerOf hs b]
    constructor
    · intro h
      right
      by_contra hb
      have hb' : b' = false := by simpa using hb
      subst hb'
      rw [next_first hs hi] at h
      have hoff := congrArg (fun x => x.2.offset) h
      simp only [readerOf, hsize] at hoff
      omega
    · rintro (h0 | rfl)
      · simp [readerOf] at h0
      · rw [next_more hs hi]
        simp only [readerOf, hsize]
        have hmoved := offset_lt_iff (hs.moved (i := f.index + 1) (by omega))
        refine Prod.ext (decide_eq_decide.2 ?_) ?_
        · refine hmoved.symm.trans (Iff.of_eq ?_)
          exact congrArg (· < _) hnext
        · simp only [hnext, List.length_cons]

end Use

/-- **The walk over a well-formed element ends and visits every element once, in document order, exactly when no group
strictly inside is empty.**  And however the reader is used: after an element was entered and left, `next` goes on to its
following sibling exactly when the element is the whole, or `next` has found a child since the last `enter`. -/
theorem walk_iff (t : Element) (tail : List UInt8) (hw : t.WellFormed) (hlen : t.encode.length < 2 ^ 31)
    (hn : t.nesting < 256) :
    (t.offsets 0).Pairwise (· < ·) ∧
    ((∃ n r, walkElement n (bteSdpDeReaderInit (t.encode ++ tail)) = some (t.offsets 0, r)) ↔ t.FullInside) ∧
    ∀ (before inside : List ReaderOp) (r r₁ r₂ : DeReader),
      Proper 0 (bteSdpDeReaderInit (t.encode ++ tail)) before →
      runReader (bteSdpDeReaderInit (t.encode ++ tail)) before = some r → r.OnElement →
      bteSdpDeReaderEnter r = (true, r₁) → Proper r₁.depth r₁ inside → runReader r₁ inside = some r₂ →
      r₂.depth = r₁.depth →
      ∃ r₃, bteSdpDeReaderLeave r₂ = some (true, r₃) ∧ (MovesOn r r₃ ↔ r.depth = 0 ∨ r₂.nextCalled = true) := by
  refine ⟨(Element.offsets_spec t 0 hw).1, ⟨?_, walk_full t tail hw hlen hn⟩, ?_⟩
  · rintro ⟨n, r, h⟩
    by_contra hfull
    rw [walk_notFull t tail hw hlen hn hfull n] at h
    cases h
  · intro before inside r r₁ r₂ hbefore hr hon henter hinside hr₂ hdepth
    obtain ⟨b, stack, hrun, hstack, -⟩ := run_stack rfl hw hlen hn stackRule_any before [] false trivial trivial hbefore
    obtain rfl := Option.some.inj (hr.symm.trans hrun)
    obtain ⟨r₂', hrun₂, hleave⟩ := left_stack rfl hw hlen hn hstack hon henter hinside
    obtain rfl := Option.some.inj (hr₂.symm.trans hrun₂)
    exact ⟨_, hleave hdepth, movesOn_iff hstack hon⟩

/-- A sequence of a number and a choice with one child, its length in two bytes. -/
def fullElement : Element :=
  .group .sequence .w1 [.leaf [0x08, 42], .group .choice .w2 [.leaf [0x28, 1]]]

theorem wellFormed_fullElement : fullElement.WellFormed := by
  simp only [fullElement, Element.WellFormed, ElementsWellFormed]
  decide

theorem walk_iff_fullElement :
    fullElement.encode = [0x35, 7, 0x08, 42, 0x3e, 0, 2, 0x28, 1] ∧
    ∃ n r, walkElement n (bteSdpDeReaderInit fullElement.encode) = some ([0, 2, 4, 7], r) := by
  have h := (walk_iff fullElement [] wellFormed_fullElement (by decide) (by decide)).2.1.2
    (by simp [fullElement, Element.FullInside, ElementsFull, Element.Full])
  rw [List.append_nil] at h
  exact ⟨by decide, h⟩

/-- **Leaving a group restores the position before it was entered**: every proper use of the reader comes to an end, on a
stack of groups of the element whose innermost one `find_seq_start_offset` finds again, and what is entered and left again,
with any proper use inside, leaves depth, offset and start of the sequence as they were. -/
theorem leave_restores (t : Element) (tail : List UInt8) (hw : t.WellFormed) (hlen : t.encode.length < 2 ^ 31)
    (hn : t.nesting < 256) (before : List ReaderOp) (hbefore : Proper 0 (bteSdpDeReaderInit (t.encode ++ tail)) before) :
    ∃ b stack, StackOf t (t.encode ++ tail) stack ∧
      runReader (bteSdpDeReaderInit (t.encode ++ tail)) before = some (readerOf (t.encode ++ tail) b stack) ∧
      (∀ f fs, stack = f :: fs → findSeqStartOffset (t.encode ++ tail) fs.length f.offset = some f.start) ∧
      ∀ r₁ inside, (readerOf (t.encode ++ tail) b stack).OnElement →
        bteSdpDeReaderEnter (readerOf (t.encode ++ tail) b stack) = (true, r₁) → Proper r₁.depth r₁ inside →
        ∃ r₂, runReader r₁ inside = some r₂ ∧ (r₂.depth = r₁.depth → ∃ r₃, bteSdpDeReaderLeave r₂ = some (true, r₃) ∧
          r₃.depth = (readerOf (t.encode ++ tail) b stack).depth ∧
          r₃.offset = (readerOf (t.encode ++ tail) b stack).offset ∧
          r₃.seqStartOffset = (readerOf (t.encode ++ tail) b stack).seqStartOffset) := by
  obtain ⟨b, stack, hrun, hstack, -⟩ := run_stack rfl hw hlen hn stackRule_any before [] false trivial trivial hbefore
  refine ⟨b, stack, hstack, hrun, ?_, ?_⟩
  · rintro f fs rfl
    have hroom := hstack.2.1
    simp only [List.length_cons] at hroom
    exact findSeqStartOffset_frame hstack.1 (by omega)
  · intro r₁ inside hon henter hinside
    obtain ⟨r₂, hrun₂, hleave⟩ := left_stack rfl hw hlen hn hstack hon henter hinside
    refine ⟨r₂, hrun₂, fun hdepth => ⟨_, hleave hdepth, ?_⟩⟩
    cases stack with
    | nil => exact ⟨rfl, rfl, rfl⟩
    | cons f fs => exact ⟨rfl, rfl, rfl⟩

/-- The choice of `fullElement` is entered, read and left again. -/
theorem leave_restores_fullElement :
    ∃ r r₁ r₂ r₃, runReader (bteSdpDeReaderInit (fullElement.encode ++ [])) [.enter, .next, .next] = some r ∧
      bteSdpDeReaderEnter r = (true, r₁) ∧ runReader r₁ [.next] = some r₂ ∧ bteSdpDeReaderLeave r₂ = some (true, r₃) ∧
      r₃.depth = r.depth ∧ r₃.offset = r.offset ∧ r₃.seqStartOffset = r.seqStartOffset := by
  have hproper : Proper 0 (bteSdpDeReaderInit (fullElement.encode ++ [])) [.enter, .next, .next] := by
    refine ⟨fun _ => .inl rfl, nofun, fun r' h => ?_⟩
    simp [Proper]
  obtain ⟨b, stack, -, hrun, -, hinside⟩ := leave_restores fullElement [] wellFormed_fullElement (by decide) (by decide)
    [.enter, .next, .next] hproper
  have hat : readerOf (fullElement.encode ++ []) b stack = ⟨fullElement.encode ++ [], 4, 0, 1, true⟩ :=
    Option.some.inj (hrun.symm.trans (by decide))
  rw [hat] at hrun hinside
  obtain ⟨r₂, hrun₂, hleave⟩ := hinside ⟨fullElement.encode ++ [], 7, 4, 2, false⟩ [.next] (.inr (by decide)) (by decide)
    (by simp [Proper])
  have hdepth : r₂ = ⟨fullElement.encode ++ [], 7, 4, 2, true⟩ := Option.some.inj (hrun₂.symm.trans (by decide))
  obtain ⟨r₃, hr₃⟩ := hleave (by rw [hdepth])
  exact ⟨_, _, r₂, r₃, hrun, by decide, hrun₂, hr₃⟩

/-- A sequence of an empty sequence and a number. -/
def hollowElement : Element := .group .sequence .w1 [.group .sequence .w1 [], .leaf [0x08, 42]]

/-- The walk over it does not end: left empty, the first child is found again and again. -/
theorem walk_stuck :
    hollowElement.encode = [0x35, 4, 0x35, 0, 0x08, 42] ∧ hollowElement.WellFormed ∧
    (∀ n, walkElement n (bteSdpDeReaderInit [0x35, 4, 0x35, 0, 0x08, 42]) = none) ∧
    (runReader (bteSdpDeReaderInit [0x35, 4, 0x35, 0, 0x08, 42]) [.enter, .next, .enter, .next, .leave]).map
      bteSdpDeReaderNext = some (true, ⟨[0x35, 4, 0x35, 0, 0x08, 42], 2, 0, 1, true⟩) := by
  have hw : hollowElement.WellFormed := by
    simp only [hollowElement, Element.WellFormed, ElementsWellFormed]
    decide
  have h := walk_notFull hollowElement [] hw (by decide) (by decide)
    (by simp [hollowElement, Element.FullInside, ElementsFull, Element.Full])
  exact ⟨by decide, hw, h, by decide⟩

end Bte
