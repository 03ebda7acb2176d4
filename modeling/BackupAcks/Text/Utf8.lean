/-!
# Text as UTF-8 bytes

`encode` writes a text as the bytes of its characters; `decode` reads bytes back and, where they
are not UTF-8, says up to which byte they were and how many bytes form the broken sequence.
Sequences longer than needed, surrogates and code points above U+10FFFF are broken.
-/
namespace BackupAcks.Utf8

/-- Why bytes are no text: the length of the valid part, and the length of the broken sequence
after it, or none where the bytes end inside a sequence that could still be completed. -/
structure Broken where
  validUpTo : Nat
  length : Option Nat
  deriving DecidableEq, Repr

def Broken.message (b : Broken) : String :=
  match b.length with
  | some n => s!"invalid utf-8 sequence of {n} bytes from index {b.validUpTo}"
  | none => s!"incomplete utf-8 byte sequence from index {b.validUpTo}"

/-! ## Writing -/

def encodeChar (c : Char) : List UInt8 :=
  let n := c.toNat
  if n < 0x80 then [UInt8.ofNat n]
  else if n < 0x800 then [UInt8.ofNat (0xC0 + n / 64), UInt8.ofNat (0x80 + n % 64)]
  else if n < 0x10000 then
    [UInt8.ofNat (0xE0 + n / 4096), UInt8.ofNat (0x80 + n / 64 % 64), UInt8.ofNat (0x80 + n % 64)]
  else
    [UInt8.ofNat (0xF0 + n / 262144), UInt8.ofNat (0x80 + n / 4096 % 64),
      UInt8.ofNat (0x80 + n / 64 % 64), UInt8.ofNat (0x80 + n % 64)]

def encode (s : String) : List UInt8 := s.toList.flatMap encodeChar

/-! ## Reading -/

/-- Bytes that continue a sequence. -/
def isTail (b : UInt8) : Bool := 0x80 ≤ b && b ≤ 0xBF

/-- What the second byte of a sequence that starts with `a` may be, for three and four bytes. -/
def secondRange (a : UInt8) : UInt8 × UInt8 :=
  if a = 0xE0 then (0xA0, 0xBF)
  else if a = 0xED then (0x80, 0x9F)
  else if a = 0xF0 then (0x90, 0xBF)
  else if a = 0xF4 then (0x80, 0x8F)
  else (0x80, 0xBF)

def isSecond (a b : UInt8) : Bool := (secondRange a).1 ≤ b && b ≤ (secondRange a).2

/-- The six low bits that a continuation byte carries. -/
def payload (b : UInt8) : Nat := b.toNat - 0x80

/-- The characters of `bytes`, which start at index `pos` of the whole. -/
def decodeFrom (pos : Nat) (bytes : List UInt8) : Except Broken (List Char) :=
  match bytes with
  | [] => .ok []
  | a :: rest =>
    if a < 0x80 then
      (decodeFrom (pos + 1) rest).map (Char.ofNat a.toNat :: ·)
    else if 0xC2 ≤ a && a ≤ 0xDF then
      match rest with
      | [] => .error ⟨pos, none⟩
      | b :: rest =>
        if isTail b then
          (decodeFrom (pos + 2) rest).map
            (Char.ofNat ((a.toNat - 0xC0) * 64 + payload b) :: ·)
        else .error ⟨pos, some 1⟩
    else if 0xE0 ≤ a && a ≤ 0xEF then
      match rest with
      | [] => .error ⟨pos, none⟩
      | b :: rest =>
        if isSecond a b then
          match rest with
          | [] => .error ⟨pos, none⟩
          | c :: rest =>
            if isTail c then
              (decodeFrom (pos + 3) rest).map
                (Char.ofNat ((a.toNat - 0xE0) * 4096 + payload b * 64 + payload c) :: ·)
            else .error ⟨pos, some 2⟩
        else .error ⟨pos, some 1⟩
    else if 0xF0 ≤ a && a ≤ 0xF4 then
      match rest with
      | [] => .error ⟨pos, none⟩
      | b :: rest =>
        if isSecond a b then
          match rest with
          | [] => .error ⟨pos, none⟩
          | c :: rest =>
            if isTail c then
              match rest with
              | [] => .error ⟨pos, none⟩
              | d :: rest =>
                if isTail d then
                  (decodeFrom (pos + 4) rest).map
                    (Char.ofNat ((a.toNat - 0xF0) * 262144 + payload b * 4096 + payload c * 64 +
                      payload d) :: ·)
                else .error ⟨pos, some 3⟩
            else .error ⟨pos, some 2⟩
        else .error ⟨pos, some 1⟩
    else .error ⟨pos, some 1⟩

/-- The text of `bytes`, or where and how they are broken. -/
def decode (bytes : List UInt8) : Except Broken String :=
  (decodeFrom 0 bytes).map String.ofList

/-- The text of `bytes` with each broken sequence replaced by U+FFFD; `fuel` bounds the number of
broken sequences. -/
def decodeLossyFrom : (fuel : Nat) → List UInt8 → List Char
  | 0, _ => []
  | fuel + 1, bytes =>
    match decodeFrom 0 bytes with
    | .ok cs => cs
    | .error broken =>
      let valid := match decodeFrom 0 (bytes.take broken.validUpTo) with
        | .ok cs => cs
        | .error _ => []
      let rest := match broken.length with
        | some n => decodeLossyFrom fuel (bytes.drop (broken.validUpTo + n))
        | none => []
      valid ++ '\uFFFD' :: rest

/-- The text of `bytes`, whatever they are: a broken sequence reads as U+FFFD. -/
def decodeLossy (bytes : List UInt8) : String :=
  String.ofList (decodeLossyFrom (bytes.length + 1) bytes)

end BackupAcks.Utf8
