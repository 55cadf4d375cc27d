import Steward.Text.Wide

/-!
# Proofs/Text/Wide — what is encoded is decoded again

A character is encoded as one unit that is no surrogate, or as a high surrogate and a low one; so the units
of a text fall apart into the units of its characters again, from the left.  A unit is zero for the
character U+0000 and for no other: so to cut the units at the first zero is to cut the text there.

* `decodeChars_unitsOf` — the units of a character at the front are decoded as that character.
* `decode_encode` — a text comes back up to its first U+0000.
-/

namespace Steward.Wide

/-- A text up to its first U+0000. -/
def beforeNul (s : String) : String := String.ofList (s.toList.takeWhile (· ≠ '\x00'))

/-! ## One unit -/

theorem isHigh_iff (u : UInt16) : isHigh u = true ↔ 0xD800 ≤ u.toNat ∧ u.toNat < 0xDC00 := by
  simp [isHigh, UInt16.le_iff_toNat_le, UInt16.lt_iff_toNat_lt]

theorem isLow_iff (u : UInt16) : isLow u = true ↔ 0xDC00 ≤ u.toNat ∧ u.toNat < 0xE000 := by
  simp [isLow, UInt16.le_iff_toNat_le, UInt16.lt_iff_toNat_lt]

/-- A unit that begins no pair stands alone. -/
theorem decodeChars_cons {u : UInt16} (hu : isHigh u = false) (us : List UInt16) :
    decodeChars (u :: us) = single u :: decodeChars us := by
  cases us with
  | nil => rfl
  | cons v us => rw [decodeChars, hu, Bool.false_and, if_neg Bool.false_ne_true]

/-- No character is a surrogate. -/
theorem toNat_valid (c : Char) : c.toNat < 0xD800 ∨ 0xE000 ≤ c.toNat ∧ c.toNat < 0x110000 := by
  obtain h | ⟨h₁, h₂⟩ := c.valid
  · exact .inl h
  · exact .inr ⟨h₁, h₂⟩

/-! ## One character -/

/-- A character of the first plane is one unit, and no surrogate. -/
theorem unitsOf_plain {c : Char} (hc : c.toNat < 0x10000) :
    ∃ u : UInt16, unitsOf c = [u] ∧ u.toNat = c.toNat ∧ isHigh u = false ∧ isLow u = false := by
  have hu : (UInt16.ofNat c.toNat).toNat = c.toNat := UInt16.toNat_ofNat_of_lt hc
  have hvalid := toNat_valid c
  refine ⟨UInt16.ofNat c.toNat, if_pos hc, hu, ?_, ?_⟩
  · rw [Bool.eq_false_iff, ne_eq, isHigh_iff, hu]
    omega
  · rw [Bool.eq_false_iff, ne_eq, isLow_iff, hu]
    omega

/-- Any other character is a pair of surrogates. -/
theorem unitsOf_pair {c : Char} (hc : 0x10000 ≤ c.toNat) :
    ∃ h l : UInt16, unitsOf c = [h, l] ∧ isHigh h = true ∧ isLow l = true ∧
      0x10000 + (h.toNat - 0xD800) * 0x400 + (l.toNat - 0xDC00) = c.toNat := by
  have hvalid := toNat_valid c
  have hsize : UInt16.size = 0x10000 := rfl
  have hhigh : (UInt16.ofNat (0xD800 + (c.toNat - 0x10000) / 0x400)).toNat =
      0xD800 + (c.toNat - 0x10000) / 0x400 := UInt16.toNat_ofNat_of_lt (by omega)
  have hlow : (UInt16.ofNat (0xDC00 + (c.toNat - 0x10000) % 0x400)).toNat =
      0xDC00 + (c.toNat - 0x10000) % 0x400 := UInt16.toNat_ofNat_of_lt (by omega)
  refine ⟨_, _, if_neg (Nat.not_lt.mpr hc), ?_, ?_, ?_⟩
  · rw [isHigh_iff, hhigh]
    omega
  · rw [isLow_iff, hlow]
    omega
  · rw [hhigh, hlow]
    omega

/-- **The units of a character are decoded as that character**, whatever comes behind. -/
theorem decodeChars_unitsOf (c : Char) (us : List UInt16) :
    decodeChars (unitsOf c ++ us) = c :: decodeChars us := by
  obtain hc | hc := Nat.lt_or_ge c.toNat 0x10000
  · obtain ⟨u, hunits, hu, hhigh, hlow⟩ := unitsOf_plain hc
    rw [hunits, List.singleton_append, decodeChars_cons hhigh, single, hhigh, hlow, hu, Char.ofNat_toNat]
    rfl
  · obtain ⟨h, l, hunits, hhigh, hlow, hsum⟩ := unitsOf_pair hc
    rw [hunits, List.cons_append, List.singleton_append, decodeChars, hhigh, hlow, pair, hsum,
      Char.ofNat_toNat]
    rfl

/-- U+0000 is one zero unit. -/
theorem unitsOf_nul : unitsOf '\x00' = [0] := by decide

/-- No other character has a zero unit. -/
theorem zero_notMem_unitsOf {c : Char} (hc : c ≠ '\x00') : ∀ u ∈ unitsOf c, u ≠ 0 := by
  have hnat : c.toNat ≠ 0 := fun h => hc (by rw [← Char.ofNat_toNat c, h])
  obtain hplain | hplain := Nat.lt_or_ge c.toNat 0x10000
  · obtain ⟨u, hunits, hu, -⟩ := unitsOf_plain hplain
    rw [hunits]
    rintro v hv rfl
    obtain rfl := List.mem_singleton.mp hv
    exact hnat hu.symm
  · obtain ⟨h, l, hunits, hhigh, hlow, -⟩ := unitsOf_pair hplain
    rw [hunits]
    rintro v hv rfl
    obtain rfl | rfl : 0 = h ∨ 0 = l := by simpa using hv
    · exact absurd hhigh (by decide)
    · exact absurd hlow (by decide)

/-! ## A text -/

/-- **What is encoded is decoded again.** -/
theorem decodeChars_encodeChars (cs : List Char) : decodeChars (encodeChars cs) = cs := by
  induction cs with
  | nil => rfl
  | cons c cs ih => rw [encodeChars, List.flatMap_cons, decodeChars_unitsOf, ← encodeChars, ih]

/-- To cut the units at the first zero is to cut the text at its first U+0000. -/
theorem takeWhile_encodeChars (cs : List Char) :
    (encodeChars cs).takeWhile (· != 0) = encodeChars (cs.takeWhile (· ≠ '\x00')) := by
  induction cs with
  | nil => rfl
  | cons c cs ih =>
    rw [encodeChars, List.flatMap_cons, ← encodeChars]
    by_cases hc : c = '\x00'
    · rw [hc, unitsOf_nul]
      rfl
    · have hunits : ∀ u ∈ unitsOf c, (u != 0) = true := fun u hu =>
        bne_iff_ne.mpr (zero_notMem_unitsOf hc u hu)
      rw [List.takeWhile_append_of_pos hunits, ih, List.takeWhile_cons_of_pos (by simpa using hc),
        encodeChars, encodeChars, List.flatMap_cons]

/-- **A text comes back as it is, up to its first U+0000.** -/
theorem decode_encode (s : String) : decode (encode s) = beforeNul s := by
  rw [decode, encode, takeWhile_encodeChars, decodeChars_encodeChars, beforeNul]

/-- So do the startup arguments, in order. -/
theorem decodeArgs_encode (args : List String) :
    decodeArgs (args.map encode) = args.map beforeNul := by
  rw [decodeArgs, List.map_map]
  exact List.map_congr_left fun s _ => decode_encode s

end Steward.Wide
