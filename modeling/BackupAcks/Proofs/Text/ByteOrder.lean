import BackupAcks.Proofs.Text.Utf8

/-!
# The order of texts is the order of their bytes

Texts are compared character by character. A longer sequence of bytes starts with a larger byte than
a shorter one, and two sequences of one length are the digits of their code points, the highest
first. So the bytes of two different characters differ first where the larger character has the
larger byte, whatever stands behind them.

Results:
* `encodeChar_lt`: the larger character has the larger bytes;
* `encode_lt_iff`: the smaller text has the smaller bytes.
-/
namespace BackupAcks.Utf8

variable {x y : Nat} {c d : Char} {k l : List UInt8}

/-- A byte decides unless it is the same in both. -/
theorem byte_cons_lt (hy : y < 256) (hle : x ≤ y) (h : x = y → k < l) :
    UInt8.ofNat x :: k < UInt8.ofNat y :: l := by
  rw [List.cons_lt_cons_iff]
  rcases Nat.lt_or_eq_of_le hle with hlt | rfl
  · left
    rwa [UInt8.lt_iff_toNat_lt, toNat_byte hy, toNat_byte (Nat.lt_trans hlt hy)]
  · exact .inr ⟨rfl, h rfl⟩

theorem byte_lt (hy : y < 256) (hlt : x < y) : UInt8.ofNat x :: k < UInt8.ofNat y :: l :=
  byte_cons_lt hy (Nat.le_of_lt hlt) fun h => absurd h (Nat.ne_of_lt hlt)

theorem encodeChar_lt (h : c < d) (k l : List UInt8) : encodeChar c ++ k < encodeChar d ++ l := by
  have hlt : c.toNat < d.toNat := h
  have hd : d.toNat < 0x110000 := by
    have hvalid : d.toNat < 0xD800 ∨ 0xDFFF < d.toNat ∧ d.toNat < 0x110000 := d.valid
    omega
  unfold encodeChar
  -- sequences of one length are compared digit by digit, others by their first bytes
  by_cases hc1 : c.toNat < 0x80
  · rw [if_pos hc1]
    by_cases hd1 : d.toNat < 0x80
    · rw [if_pos hd1]
      exact byte_lt (by omega) hlt
    rw [if_neg hd1]
    split
    · exact byte_lt (by omega) (by omega)
    · split <;> exact byte_lt (by omega) (by omega)
  rw [if_neg hc1, if_neg (by omega : ¬ d.toNat < 0x80)]
  by_cases hc2 : c.toNat < 0x800
  · rw [if_pos hc2]
    by_cases hd2 : d.toNat < 0x800
    · rw [if_pos hd2]
      refine byte_cons_lt (by omega) (by omega) fun h1 => ?_
      exact byte_lt (by omega) (by omega)
    rw [if_neg hd2]
    split <;> exact byte_lt (by omega) (by omega)
  rw [if_neg hc2, if_neg (by omega : ¬ d.toNat < 0x800)]
  by_cases hc3 : c.toNat < 0x10000
  · rw [if_pos hc3]
    by_cases hd3 : d.toNat < 0x10000
    · rw [if_pos hd3]
      refine byte_cons_lt (by omega) (by omega) fun h1 => ?_
      refine byte_cons_lt (by omega) (by omega) fun h2 => ?_
      exact byte_lt (by omega) (by omega)
    rw [if_neg hd3]
    exact byte_lt (by omega) (by omega)
  rw [if_neg hc3, if_neg (by omega : ¬ d.toNat < 0x10000)]
  refine byte_cons_lt (by omega) (by omega) fun h1 => ?_
  refine byte_cons_lt (by omega) (by omega) fun h2 => ?_
  refine byte_cons_lt (by omega) (by omega) fun h3 => ?_
  exact byte_lt (by omega) (by omega)

theorem flatMap_encodeChar_lt {cs ds : List Char} (h : cs < ds) :
    cs.flatMap encodeChar < ds.flatMap encodeChar := by
  induction ds generalizing cs with
  | nil => exact absurd h (List.not_lt_nil cs)
  | cons d ds ih =>
    rw [List.flatMap_cons]
    cases cs with
    | nil =>
      cases hd : encodeChar d with
      | nil =>
        have hsize := d.utf8Size_pos
        rw [← length_encodeChar, hd] at hsize
        cases hsize
      | cons b bytes => exact List.nil_lt_cons b _
    | cons c cs =>
      rw [List.flatMap_cons]
      rcases List.cons_lt_cons_iff.1 h with hc | ⟨rfl, hcs⟩
      · exact encodeChar_lt hc _ _
      · exact List.append_left_lt (ih hcs)

/-- The smaller text has the smaller bytes. -/
theorem encode_lt_iff {s t : String} : encode s < encode t ↔ s < t := by
  have hbytes : ∀ {s t : String}, s < t → encode s < encode t := fun h =>
    flatMap_encodeChar_lt (String.lt_iff.1 h)
  refine ⟨fun h => String.not_le.1 fun hle => ?_, hbytes⟩
  by_cases hlt : t < s
  · exact List.lt_asymm h (hbytes hlt)
  · rw [String.le_antisymm (String.not_lt.1 hlt) hle] at h
    exact List.lt_irrefl _ h

end BackupAcks.Utf8
