import BackupAcks.Text.Utf8

/-!
# Text survives its encoding

The bytes of a character are read back as the character, whatever stands behind them: the ranges
that the reader demands of each byte are those that the writer produces, as a character is neither a
surrogate nor above U+10FFFF.

Results:
* `decodeFrom_one` to `decodeFrom_four`: how a sequence of each length is read;
* `decodeFrom_encodeChar`: a character is read back;
* `decode_encode`: so is a text;
* `length_encode`: a text has as many bytes as it says.
-/
namespace BackupAcks.Utf8

variable {n x y z t pos : Nat} {rest : List UInt8}

/-! ## Bytes that are written -/

theorem toNat_byte (h : x < 256) : (UInt8.ofNat x).toNat = x :=
  UInt8.toNat_ofNat_of_lt' h

theorem byte_eq_iff (hx : x < 256) (b : UInt8) : UInt8.ofNat x = b ↔ x = b.toNat := by
  rw [← UInt8.toNat_inj, toNat_byte hx]

theorem isTail_byte (h : x < 64) : isTail (UInt8.ofNat (0x80 + x)) = true := by
  have hx : 0x80 + x < 256 := by omega
  simp only [isTail, UInt8.le_iff_toNat_le, toNat_byte hx, UInt8.reduceToNat, Bool.and_eq_true,
    decide_eq_true_eq]
  omega

theorem payload_byte (h : x < 64) : payload (UInt8.ofNat (0x80 + x)) = x := by
  have hx := toNat_byte (x := 0x80 + x) (by omega)
  unfold payload
  omega

/-- The second byte, of a sequence of three or four: neither a longer form than needed, nor a
surrogate, nor too high. -/
theorem isSecond_byte (hx : x < 256) (hy : y < 64) (hE0 : x = 0xE0 → 32 ≤ y)
    (hED : x = 0xED → y < 32) (hF0 : x = 0xF0 → 16 ≤ y) (hF4 : x = 0xF4 → y < 16) :
    isSecond (UInt8.ofNat x) (UInt8.ofNat (0x80 + y)) = true := by
  have hb : 0x80 + y < 256 := by omega
  simp only [isSecond, secondRange, byte_eq_iff hx, UInt8.le_iff_toNat_le, toNat_byte hb,
    Bool.and_eq_true, decide_eq_true_eq, UInt8.reduceToNat]
  split
  · simp only [UInt8.reduceToNat]
    omega
  · split
    · simp only [UInt8.reduceToNat]
      omega
    · split
      · simp only [UInt8.reduceToNat]
        omega
      · split <;> simp only [UInt8.reduceToNat] <;> omega

/-! ## Sequences that are read -/

theorem decodeFrom_one (hx : x < 0x80) : decodeFrom pos (UInt8.ofNat x :: rest) =
    (decodeFrom (pos + 1) rest).map (Char.ofNat x :: ·) := by
  have ha : x < 256 := by omega
  have hlow : UInt8.ofNat x < 0x80 := by
    simp only [UInt8.lt_iff_toNat_lt, toNat_byte ha, UInt8.reduceToNat, hx]
  rw [decodeFrom.eq_def]
  simp only [if_pos hlow, toNat_byte ha]

theorem decodeFrom_two (hx : 2 ≤ x) (hx' : x < 32) (hy : y < 64) :
    decodeFrom pos (UInt8.ofNat (0xC0 + x) :: UInt8.ofNat (0x80 + y) :: rest) =
      (decodeFrom (pos + 2) rest).map (Char.ofNat (x * 64 + y) :: ·) := by
  have ha : 0xC0 + x < 256 := by omega
  rw [decodeFrom.eq_def]
  simp only [UInt8.lt_iff_toNat_lt, UInt8.le_iff_toNat_le, toNat_byte ha, UInt8.reduceToNat,
    Bool.and_eq_true, decide_eq_true_eq, payload_byte hy, isTail_byte hy, if_true]
  rw [if_neg (by omega), if_pos (by omega), Nat.add_sub_cancel_left]

theorem decodeFrom_three (hx : x < 16) (hy : y < 64) (hz : z < 64) (hlong : x = 0 → 32 ≤ y)
    (hsurrogate : x = 13 → y < 32) :
    decodeFrom pos
        (UInt8.ofNat (0xE0 + x) :: UInt8.ofNat (0x80 + y) :: UInt8.ofNat (0x80 + z) :: rest) =
      (decodeFrom (pos + 3) rest).map (Char.ofNat (x * 4096 + y * 64 + z) :: ·) := by
  have ha : 0xE0 + x < 256 := by omega
  have hsecond := isSecond_byte ha hy (fun h => hlong (by omega)) (fun h => hsurrogate (by omega))
    (fun h => by omega) (fun h => by omega)
  rw [decodeFrom.eq_def]
  simp only [UInt8.lt_iff_toNat_lt, UInt8.le_iff_toNat_le, toNat_byte ha, UInt8.reduceToNat,
    Bool.and_eq_true, decide_eq_true_eq, hsecond, payload_byte hy, payload_byte hz,
    isTail_byte hz, if_true]
  rw [if_neg (by omega), if_neg (by omega), if_pos (by omega), Nat.add_sub_cancel_left]

theorem decodeFrom_four (hx : x < 5) (hy : y < 64) (hz : z < 64) (ht : t < 64)
    (hlong : x = 0 → 16 ≤ y) (hhigh : x = 4 → y < 16) :
    decodeFrom pos
        (UInt8.ofNat (0xF0 + x) :: UInt8.ofNat (0x80 + y) :: UInt8.ofNat (0x80 + z) ::
          UInt8.ofNat (0x80 + t) :: rest) =
      (decodeFrom (pos + 4) rest).map
        (Char.ofNat (x * 262144 + y * 4096 + z * 64 + t) :: ·) := by
  have ha : 0xF0 + x < 256 := by omega
  have hsecond := isSecond_byte ha hy (fun h => by omega) (fun h => by omega)
    (fun h => hlong (by omega)) (fun h => hhigh (by omega))
  rw [decodeFrom.eq_def]
  simp only [UInt8.lt_iff_toNat_lt, UInt8.le_iff_toNat_le, toNat_byte ha, UInt8.reduceToNat,
    Bool.and_eq_true, decide_eq_true_eq, hsecond, payload_byte hy, payload_byte hz,
    payload_byte ht, isTail_byte hz, isTail_byte ht, if_true]
  rw [if_neg (by omega), if_neg (by omega), if_neg (by omega), if_pos (by omega),
    Nat.add_sub_cancel_left]

/-! ## What is written is read -/

theorem decodeFrom_encodeChar (pos : Nat) (c : Char) (rest : List UInt8) :
    decodeFrom pos (encodeChar c ++ rest) =
      (decodeFrom (pos + (encodeChar c).length) rest).map (c :: ·) := by
  have hvalid : c.toNat < 0xD800 ∨ 0xDFFF < c.toNat ∧ c.toNat < 0x110000 := c.valid
  unfold encodeChar
  by_cases h1 : c.toNat < 0x80
  · simp only [if_pos h1, List.cons_append, List.nil_append]
    rw [decodeFrom_one h1, Char.ofNat_toNat]
    rfl
  by_cases h2 : c.toNat < 0x800
  · simp only [if_neg h1, if_pos h2, List.cons_append, List.nil_append]
    have hcode : c.toNat / 64 * 64 + c.toNat % 64 = c.toNat := by omega
    rw [decodeFrom_two (by omega) (by omega) (by omega), hcode, Char.ofNat_toNat]
    rfl
  by_cases h3 : c.toNat < 0x10000
  · simp only [if_neg h1, if_neg h2, if_pos h3, List.cons_append, List.nil_append]
    have hcode : c.toNat / 4096 * 4096 + c.toNat / 64 % 64 * 64 + c.toNat % 64 = c.toNat := by
      omega
    rw [decodeFrom_three (by omega) (by omega) (by omega) (by omega) (by omega), hcode,
      Char.ofNat_toNat]
    rfl
  · simp only [if_neg h1, if_neg h2, if_neg h3, List.cons_append, List.nil_append]
    have hcode : c.toNat / 262144 * 262144 + c.toNat / 4096 % 64 * 4096 + c.toNat / 64 % 64 * 64 +
        c.toNat % 64 = c.toNat := by omega
    rw [decodeFrom_four (by omega) (by omega) (by omega) (by omega) (by omega) (by omega), hcode,
      Char.ofNat_toNat]
    rfl

theorem decodeFrom_flatMap (pos : Nat) (cs : List Char) :
    decodeFrom pos (cs.flatMap encodeChar) = .ok cs := by
  induction cs generalizing pos with
  | nil => rfl
  | cons c cs ih =>
    rw [List.flatMap_cons, decodeFrom_encodeChar, ih]
    rfl

theorem decode_encode (s : String) : decode (encode s) = .ok s := by
  rw [decode, encode, decodeFrom_flatMap]
  exact congrArg Except.ok String.ofList_toList

theorem encode_inj {s s' : String} (h : encode s = encode s') : s = s' := by
  have hdecode := decode_encode s
  rw [h, decode_encode] at hdecode
  exact (Except.ok.inj hdecode).symm

/-- A text has no broken sequences to be replaced. -/
theorem decodeLossy_encode (s : String) : decodeLossy (encode s) = s := by
  rw [decodeLossy, decodeLossyFrom, encode, decodeFrom_flatMap]
  exact String.ofList_toList

/-! ## Sizes -/

theorem length_encodeChar (c : Char) : (encodeChar c).length = c.utf8Size := by
  have hle : ∀ (k : Nat) (hk : k < UInt32.size),
      c.val ≤ UInt32.ofNatLT k hk ↔ c.toNat < k + 1 := by
    intro k hk
    rw [UInt32.le_iff_toNat_le, UInt32.toNat_ofNatLT, Nat.lt_succ_iff]
    rfl
  simp only [encodeChar, Char.utf8Size, hle]
  split
  · rfl
  · split
    · rfl
    · split <;> rfl

theorem length_flatMap_encodeChar (cs : List Char) :
    (cs.flatMap encodeChar).length = cs.utf8Encode.size := by
  induction cs with
  | nil => rfl
  | cons c cs ih =>
    rw [List.flatMap_cons, List.length_append, ih, length_encodeChar, List.utf8Encode_cons,
      ByteArray.size_append, List.utf8Encode_singleton, List.size_toByteArray,
      String.length_utf8EncodeChar]

/-- A text has as many bytes as it says. -/
theorem length_encode (s : String) : (encode s).length = s.utf8ByteSize := by
  rw [encode, length_flatMap_encodeChar, String.utf8Encode_toList]
  rfl

/-- No character takes more than four bytes. -/
theorem utf8ByteSize_le (s : String) : s.utf8ByteSize ≤ 4 * s.length := by
  rw [← length_encode, encode, ← String.length_toList]
  induction s.toList with
  | nil => exact Nat.le_refl 0
  | cons c cs ih =>
    have hc := c.utf8Size_le_four
    rw [← length_encodeChar] at hc
    rw [List.flatMap_cons, List.length_append, List.length_cons]
    omega

end BackupAcks.Utf8
