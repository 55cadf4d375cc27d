import Mathlib.Data.List.Forall2
import Mathlib.Data.List.TakeWhile
import Steward.Proofs.Text.Wide

/-!
# Proofs/Text/Repair — decoding mends what is no text, and leaves the rest as it is

Whether a surrogate is part of a pair is seen from its two neighbours: a high one needs a low one
behind it, a low one a high one before it.  No unit is both, so no unit is part of two pairs, and a
decoder that goes from left to right finds all pairs there are.

* `repaired_decodeChars` — to decode units and to encode them again replaces the surrogates that
  stand alone, and changes nothing else.
* `encode_decode_eq_iff` — so exactly those units come back that are well-formed and hold no zero.
* `decodeArgs_repairs` — the same for the startup arguments, one by one.
-/

namespace Steward.Wide

/-- A unit that is no character by itself. -/
def isSurrogate (u : UInt16) : Bool := isHigh u || isLow u

/-- A high surrogate stands at this position, and a low one behind it. -/
def PairAt (us : List UInt16) (i : Nat) : Prop :=
  ∃ h l, us[i]? = some h ∧ us[i + 1]? = some l ∧ isHigh h = true ∧ isLow l = true

/-- A surrogate stands at this position, and is neither the first nor the second unit of a pair. -/
def LoneAt (us : List UInt16) (i : Nat) : Prop :=
  (∃ u, us[i]? = some u ∧ isSurrogate u = true) ∧ ¬ PairAt us i ∧ ∀ j, j + 1 = i → ¬ PairAt us j

/-- The second list is the first one with the surrogates that stand alone replaced, and exactly
those. -/
structure Repaired (us vs : List UInt16) : Prop where
  length_eq : vs.length = us.length
  replaced : ∀ i, LoneAt us i → vs[i]? = some 0xFFFD
  kept : ∀ i, ¬ LoneAt us i → vs[i]? = us[i]?

/-- Every surrogate is part of a pair. -/
def WellFormed (us : List UInt16) : Prop := ∀ i, ¬ LoneAt us i

/-! ## Which surrogates stand alone -/

section Positions

variable {u h l : UInt16} {us vs : List UInt16} {i : Nat}

theorem pairAt_succ : PairAt (u :: us) (i + 1) ↔ PairAt us i := by
  simp only [PairAt, List.getElem?_cons_succ]

/-- What is high is not low. -/
theorem isHigh_of_isLow (hl : isLow l = true) : isHigh l = false := by
  rw [isLow_iff] at hl
  rw [Bool.eq_false_iff, ne_eq, isHigh_iff]
  omega

/-- A pair begins at the front exactly if the first two units are one. -/
theorem pairAt_zero : PairAt (h :: l :: us) 0 ↔ isHigh h = true ∧ isLow l = true := by
  simp [PairAt]

/-- The first unit of a pair is high. -/
theorem isHigh_of_pairAt (hp : PairAt (u :: us) 0) : isHigh u = true := by
  obtain ⟨h, l, hfirst, -, hhigh, -⟩ := hp
  obtain rfl := Option.some.inj hfirst
  exact hhigh

/-- Whether a unit stands alone does not depend on those before its neighbour. -/
theorem loneAt_succ_succ : LoneAt (u :: us) (i + 2) ↔ LoneAt us (i + 1) := by
  simp only [LoneAt, List.getElem?_cons_succ, pairAt_succ, Nat.add_right_cancel_iff, forall_eq]

/-- A unit in front that begins no pair changes nothing for those behind it. -/
theorem loneAt_succ (hfront : ¬ PairAt (u :: us) 0) : LoneAt (u :: us) (i + 1) ↔ LoneAt us i := by
  match i with
  | 0 => simp [LoneAt, pairAt_succ, hfront]
  | i + 1 => exact loneAt_succ_succ

/-- A surrogate in front that begins no pair stands alone. -/
theorem loneAt_zero (hfront : ¬ PairAt (u :: us) 0) :
    LoneAt (u :: us) 0 ↔ isSurrogate u = true := by
  constructor
  · rintro ⟨⟨v, hv, hsurrogate⟩, -⟩
    obtain rfl := Option.some.inj hv
    exact hsurrogate
  · intro hsurrogate
    exact ⟨⟨u, rfl, hsurrogate⟩, hfront, fun j hj => absurd hj (Nat.succ_ne_zero j)⟩

/-! ## Repairing from the left -/

/-- What is repaired is determined. -/
theorem Repaired.eq_of_wellFormed (hr : Repaired us vs) (hw : WellFormed us) : vs = us :=
  List.ext_getElem? fun i => hr.kept i (hw i)

theorem repaired_nil : Repaired [] [] :=
  ⟨rfl, fun _ hlone => (hlone.1.elim fun _ hu => nomatch hu.1), fun _ _ => rfl⟩

/-- A unit that begins no pair is repaired by itself. -/
theorem Repaired.cons (hfront : ¬ PairAt (u :: us) 0) (hr : Repaired us vs) :
    Repaired (u :: us) ((if isSurrogate u then 0xFFFD else u) :: vs) where
  length_eq := congrArg (· + 1) hr.length_eq
  replaced i hlone := by
    match i with
    | 0 => rw [if_pos ((loneAt_zero hfront).mp hlone), List.getElem?_cons_zero]
    | i + 1 => exact hr.replaced i ((loneAt_succ hfront).mp hlone)
  kept i hkept := by
    match i with
    | 0 =>
      rw [if_neg fun hs => hkept ((loneAt_zero hfront).mpr hs), List.getElem?_cons_zero,
        List.getElem?_cons_zero]
    | i + 1 => exact hr.kept i fun hlone => hkept ((loneAt_succ hfront).mpr hlone)

/-- A pair in front stays as it is. -/
theorem Repaired.pair (hh : isHigh h = true) (hl : isLow l = true) (hr : Repaired us vs) :
    Repaired (h :: l :: us) (h :: l :: vs) := by
  have hpair : PairAt (h :: l :: us) 0 := pairAt_zero.mpr ⟨hh, hl⟩
  have hsecond : ¬ PairAt (l :: us) 0 := fun hp =>
    Bool.false_ne_true ((isHigh_of_isLow hl).symm.trans (isHigh_of_pairAt hp))
  have hbehind : ∀ i, LoneAt (h :: l :: us) (i + 2) ↔ LoneAt us i := fun i =>
    loneAt_succ_succ.trans (loneAt_succ hsecond)
  refine ⟨congrArg (· + 2) hr.length_eq, fun i hlone => ?_, fun i hkept => ?_⟩
  · match i with
    | 0 => exact absurd hpair hlone.2.1
    | 1 => exact absurd hpair (hlone.2.2 0 rfl)
    | i + 2 => exact hr.replaced i ((hbehind i).mp hlone)
  · match i with
    | 0 | 1 => rfl
    | i + 2 => exact hr.kept i fun hlone => hkept ((hbehind i).mpr hlone)

end Positions

/-! ## What a decoded character is encoded as -/

/-- A unit that is no surrogate is a character by itself. -/
theorem toNat_ofNat_unit {u : UInt16} (hu : isSurrogate u = false) :
    (Char.ofNat u.toNat).toNat = u.toNat := by
  obtain ⟨hhigh, hlow⟩ := Bool.or_eq_false_iff.mp hu
  rw [Bool.eq_false_iff, ne_eq, isHigh_iff] at hhigh
  rw [Bool.eq_false_iff, ne_eq, isLow_iff] at hlow
  have hlt : u.toNat < 0x10000 := u.toNat_lt
  have hvalid : u.toNat.isValidChar := by
    simp only [Nat.isValidChar]
    omega
  rw [Char.ofNat, dif_pos hvalid]
  rfl

/-- **A unit that stands alone comes back as it is, or as the replacement if it is a surrogate.** -/
theorem unitsOf_single (u : UInt16) :
    unitsOf (single u) = [if isSurrogate u then 0xFFFD else u] := by
  rw [single, ← isSurrogate]
  cases hu : isSurrogate u with
  | true =>
    rw [if_pos rfl, if_pos rfl]
    decide
  | false =>
    have hlt : (Char.ofNat u.toNat).toNat < 0x10000 :=
      (toNat_ofNat_unit hu).symm ▸ u.toNat_lt
    rw [if_neg Bool.false_ne_true, if_neg Bool.false_ne_true, unitsOf, if_pos hlt,
      toNat_ofNat_unit hu, UInt16.ofNat_toNat]

/-- **A pair comes back as it is.** -/
theorem unitsOf_pairChar {h l : UInt16} (hh : isHigh h = true) (hl : isLow l = true) :
    unitsOf (pair h l) = [h, l] := by
  rw [isHigh_iff] at hh
  rw [isLow_iff] at hl
  have hvalid : (0x10000 + (h.toNat - 0xD800) * 0x400 + (l.toNat - 0xDC00)).isValidChar := by
    simp only [Nat.isValidChar]
    omega
  have hnat : (pair h l).toNat = 0x10000 + (h.toNat - 0xD800) * 0x400 + (l.toNat - 0xDC00) := by
    rw [pair, Char.ofNat, dif_pos hvalid]
    rfl
  have hhigh : 0xD800 + ((pair h l).toNat - 0x10000) / 0x400 = h.toNat := by omega
  have hlow : 0xDC00 + ((pair h l).toNat - 0x10000) % 0x400 = l.toNat := by omega
  rw [unitsOf, if_neg (by omega)]
  dsimp only
  rw [hhigh, hlow, UInt16.ofNat_toNat, UInt16.ofNat_toNat]

/-! ## A whole text -/

/-- **To decode units and to encode them again repairs them.** -/
theorem repaired_decodeChars (us : List UInt16) : Repaired us (encodeChars (decodeChars us)) := by
  induction us using decodeChars.induct with
  | case1 => exact repaired_nil
  | case2 u =>
    have hfront : ¬ PairAt [u] 0 := fun ⟨_, _, _, hl, _⟩ => nomatch hl
    rw [decodeChars, encodeChars, List.flatMap_singleton, unitsOf_single]
    exact repaired_nil.cons hfront
  | case3 h l us hpair ih =>
    obtain ⟨hh, hl⟩ := Bool.and_eq_true_iff.mp hpair
    rw [decodeChars, if_pos hpair, encodeChars, List.flatMap_cons, unitsOf_pairChar hh hl]
    exact ih.pair hh hl
  | case4 u v us hpair ih =>
    have hfront : ¬ PairAt (u :: v :: us) 0 := fun hp =>
      hpair (Bool.and_eq_true_iff.mpr (pairAt_zero.mp hp))
    rw [decodeChars, if_neg hpair, encodeChars, List.flatMap_cons, unitsOf_single]
    exact ih.cons hfront

/-- Nothing but a zero comes back as a zero. -/
theorem Repaired.zero_mem {us vs : List UInt16} (hr : Repaired us vs) (hzero : 0 ∈ vs) : 0 ∈ us := by
  obtain ⟨i, hi⟩ := List.mem_iff_getElem?.mp hzero
  by_cases hlone : LoneAt us i
  · exact absurd (hi.symm.trans (hr.replaced i hlone)) (by decide)
  · exact List.mem_iff_getElem?.mpr ⟨i, (hr.kept i hlone).symm.trans hi⟩

/-- The units before the first zero hold none. -/
theorem zero_notMem_takeWhile (us : List UInt16) : 0 ∉ us.takeWhile (· != 0) := fun hzero =>
  bne_iff_ne.mp (List.mem_takeWhile_imp (p := (· != 0)) hzero) rfl

/-- **A decoded text holds no U+0000.** -/
theorem nul_notMem_decode (us : List UInt16) : '\x00' ∉ (decode us).toList := by
  rw [decode, String.toList_ofList]
  intro hnul
  have hzero : 0 ∈ encodeChars (decodeChars (us.takeWhile (· != 0))) :=
    List.mem_flatMap.mpr ⟨'\x00', hnul, unitsOf_nul ▸ List.mem_singleton_self 0⟩
  exact zero_notMem_takeWhile us ((repaired_decodeChars _).zero_mem hzero)

/-- What comes back unchanged was well-formed. -/
theorem Repaired.wellFormed {us : List UInt16} (hr : Repaired us us) : WellFormed us := by
  intro i hlone
  obtain ⟨u, hu, hsurrogate⟩ := hlone.1
  obtain rfl := Option.some.inj (hu.symm.trans (hr.replaced i hlone))
  exact absurd hsurrogate (by decide)

/-- The units of a text are well-formed. -/
theorem wellFormed_encodeChars (cs : List Char) : WellFormed (encodeChars cs) := by
  have hr := repaired_decodeChars (encodeChars cs)
  rw [decodeChars_encodeChars] at hr
  exact hr.wellFormed

/-- The units of a decoded text are those before the first zero, repaired. -/
theorem repaired_decode (us : List UInt16) : Repaired (us.takeWhile (· != 0)) (encode (decode us)) := by
  rw [encode, decode, String.toList_ofList]
  exact repaired_decodeChars _

/-- **Exactly the well-formed units without a zero come back as they are.** -/
theorem encode_decode_eq_iff (us : List UInt16) :
    encode (decode us) = us ↔ 0 ∉ us ∧ WellFormed us := by
  constructor
  · intro hsame
    refine ⟨fun hzero => ?_, hsame ▸ wellFormed_encodeChars _⟩
    exact zero_notMem_takeWhile us ((repaired_decode us).zero_mem (hsame.symm ▸ hzero))
  · rintro ⟨hzero, hwell⟩
    have hall : us.takeWhile (· != 0) = us :=
      List.takeWhile_eq_self_iff.mpr fun u hu => bne_iff_ne.mpr (ne_of_mem_of_not_mem hu hzero)
    have hr := repaired_decode us
    rw [hall] at hr
    exact hr.eq_of_wellFormed hwell

/-- A text without U+0000 is whole before its first one. -/
theorem beforeNul_eq_self {s : String} (hs : '\x00' ∉ s.toList) : beforeNul s = s := by
  have hall : s.toList.takeWhile (· ≠ '\x00') = s.toList :=
    List.takeWhile_eq_self_iff.mpr fun c hc => decide_eq_true (ne_of_mem_of_not_mem hc hs)
  rw [beforeNul, hall, String.ofList_toList]

/-- **Decoding the startup arguments repairs them, and does nothing else.**  There is one text for each
argument, in order.  Its units are those of the argument before the first zero, as many, with exactly
the surrogates replaced that stand alone; so it holds no U+0000.  An argument comes back as it is exactly
if it is well-formed and holds no zero; and what was decoded once is decoded as the same texts again. -/
theorem decodeArgs_repairs (raw : List (List UInt16)) :
    List.Forall₂ (fun us s => Repaired (us.takeWhile (· != 0)) (encode s) ∧ '\x00' ∉ s.toList)
      raw (decodeArgs raw) ∧
    (∀ us, (decodeArgs [us]).map encode = [us] ↔ 0 ∉ us ∧ WellFormed us) ∧
    decodeArgs ((decodeArgs raw).map encode) = decodeArgs raw := by
  refine ⟨?_, fun us => ?_, ?_⟩
  · refine List.forall₂_map_right_iff.mpr (List.forall₂_same.mpr fun us _ => ?_)
    exact ⟨repaired_decode us, nul_notMem_decode us⟩
  · refine Iff.trans ⟨fun h => (List.cons.inj h).1, fun h => ?_⟩ (encode_decode_eq_iff us)
    exact congrArg (fun vs => [vs]) h
  · have hwhole : ∀ s ∈ decodeArgs raw, beforeNul s = s := by
      intro s hs
      obtain ⟨us, -, rfl⟩ := List.mem_map.mp hs
      exact beforeNul_eq_self (nul_notMem_decode us)
    rw [decodeArgs_encode, List.map_congr_left hwhole]
    exact List.map_id' _

/-- A zero that cuts a pair in half leaves its first unit alone, and so does another unit of the same
kind before a pair. -/
example : (decodeArgs [[0xD83D, 0xD83D, 0xDE00, 0xDE00], [0xD83D, 0, 0xDE00]]).map encode =
    [[0xFFFD, 0xD83D, 0xDE00, 0xFFFD], [0xFFFD]] := by decide

end Steward.Wide
