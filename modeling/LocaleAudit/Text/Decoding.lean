namespace LocaleAudit

/-!
# Decoding files

A file is UTF-8 text unless a byte order mark says otherwise. Behind a mark, malformed input turns
into replacement characters; without a mark it is refused.
-/

def replacementChar : Char := Char.ofNat 0xFFFD

/-- A multi-byte character that has begun: the bits so far, the number of bytes to come, and the
range of the next byte. -/
structure PartialChar where
  bits : Nat
  missing : Nat
  lower : Nat
  upper : Nat

/-- The characters a byte completes when no character has begun, and the one it begins. -/
def leadByte (b : Nat) : List Char × Option PartialChar :=
  if b < 0x80 then ([Char.ofNat b], none)
  else if b < 0xC2 then ([replacementChar], none)
  else if b < 0xE0 then ([], some ⟨b - 0xC0, 1, 0x80, 0xBF⟩)
  else if b < 0xF0 then
    ([], some ⟨b - 0xE0, 2, if b = 0xE0 then 0xA0 else 0x80, if b = 0xED then 0x9F else 0xBF⟩)
  else if b < 0xF5 then
    ([], some ⟨b - 0xF0, 3, if b = 0xF0 then 0x90 else 0x80, if b = 0xF4 then 0x8F else 0xBF⟩)
  else ([replacementChar], none)

/-- UTF-8 with a replacement character for every longest malformed piece. -/
def lossyUtf8From : Option PartialChar → List UInt8 → List Char
  | none, [] => []
  | some _, [] => [replacementChar]
  | none, b :: bs =>
    let (done, next) := leadByte b.toNat
    done ++ lossyUtf8From next bs
  | some p, b :: bs =>
    let n := b.toNat
    if p.lower ≤ n ∧ n ≤ p.upper then
      let bits := p.bits * 64 + (n - 0x80)
      if p.missing = 1 then Char.ofNat bits :: lossyUtf8From none bs
      else lossyUtf8From (some ⟨bits, p.missing - 1, 0x80, 0xBF⟩) bs
    else
      let (done, next) := leadByte n
      replacementChar :: done ++ lossyUtf8From next bs

def lossyUtf8 (bytes : List UInt8) : String :=
  String.ofList (lossyUtf8From none bytes)

inductive ByteOrder where
  | bigEndian
  | littleEndian
  deriving DecidableEq

def ByteOrder.unit : ByteOrder → UInt8 → UInt8 → Nat
  | .bigEndian, a, b => a.toNat * 256 + b.toNat
  | .littleEndian, a, b => b.toNat * 256 + a.toNat

/-- The characters a code unit completes when no surrogate waits, and the high surrogate that waits
behind it. -/
def leadUnit (u : Nat) : List Char × Option Nat :=
  if 0xD800 ≤ u ∧ u < 0xDC00 then ([], some u)
  else if 0xDC00 ≤ u ∧ u < 0xE000 then ([replacementChar], none)
  else ([Char.ofNat u], none)

/-- UTF-16 with a replacement character for every unpaired surrogate and for an unfinished end. -/
def lossyUtf16From (order : ByteOrder) : Option Nat → List UInt8 → List Char
  | none, [] => []
  | some _, [] => [replacementChar]
  | _, [_] => [replacementChar]
  | none, a :: b :: bs =>
    let (done, next) := leadUnit (order.unit a b)
    done ++ lossyUtf16From order next bs
  | some high, a :: b :: bs =>
    let u := order.unit a b
    if 0xDC00 ≤ u ∧ u < 0xE000 then
      Char.ofNat (0x10000 + (high - 0xD800) * 0x400 + (u - 0xDC00)) ::
        lossyUtf16From order none bs
    else
      let (done, next) := leadUnit u
      replacementChar :: done ++ lossyUtf16From order next bs

def lossyUtf16 (order : ByteOrder) (bytes : List UInt8) : String :=
  String.ofList (lossyUtf16From order none bytes)

def withoutMark (text : String) : String :=
  match text.toList with
  | c :: cs => if c = Char.ofNat 0xFEFF then String.ofList cs else text
  | [] => text

/-- The text of a file, or nothing when it has no byte order mark and is not UTF-8. -/
def decodeText (bytes : ByteArray) : Option String :=
  match bytes.data.toList with
  | 0xEF :: 0xBB :: 0xBF :: rest => some (withoutMark (lossyUtf8 rest))
  | 0xFF :: 0xFE :: rest => some (withoutMark (lossyUtf16 .littleEndian rest))
  | 0xFE :: 0xFF :: rest => some (withoutMark (lossyUtf16 .bigEndian rest))
  | _ => String.fromUTF8? bytes

end LocaleAudit
