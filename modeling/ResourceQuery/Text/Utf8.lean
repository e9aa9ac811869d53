/-!
# UTF-8 texts

Bytes are decoded into characters and ill-formed spots. A spot is as long as the start of a
well-formed sequence that it could still have become, so a decoder that refuses ill-formed bytes
and one that puts a replacement character in their place read the same spots.
-/
namespace ResourceQuery.Text

/-- What a first byte says of its sequence: the bits it gives, the bounds of the next byte, and
how many bytes follow. -/
structure LeadByte where
  /-- The leading bits of the character. -/
  bits : Nat
  /-- The least next byte. -/
  low : Nat
  /-- The greatest next byte. -/
  high : Nat
  /-- The number of bytes that follow. -/
  following : Nat

/-- The first bytes of well-formed sequences. -/
def leadByte? (byte : Nat) : Option LeadByte :=
  if byte < 0x80 then some ⟨byte, 0x80, 0xBF, 0⟩
  else if byte < 0xC2 then none
  else if byte < 0xE0 then some ⟨byte - 0xC0, 0x80, 0xBF, 1⟩
  else if byte < 0xF0 then
    some ⟨byte - 0xE0, if byte = 0xE0 then 0xA0 else 0x80, if byte = 0xED then 0x9F else 0xBF, 2⟩
  else if byte < 0xF5 then
    some ⟨byte - 0xF0, if byte = 0xF0 then 0x90 else 0x80, if byte = 0xF4 then 0x8F else 0xBF, 3⟩
  else none

/-- The character of a sequence whose first bytes are read, or none where the next byte does not
fit, and the bytes after it. -/
def readSequence (bits low high : Nat) : Nat → List UInt8 → Option Char × List UInt8
  | 0, rest => (some (Char.ofNat bits), rest)
  | _ + 1, [] => (none, [])
  | following + 1, byte :: rest =>
    if low ≤ byte.toNat ∧ byte.toNat ≤ high then
      readSequence (bits * 64 + byte.toNat % 64) 0x80 0xBF following rest
    else (none, byte :: rest)

/-- Reading a sequence adds no bytes. -/
theorem readSequence_length_le (bits low high following : Nat) (bytes : List UInt8) :
    (readSequence bits low high following bytes).2.length ≤ bytes.length := by
  fun_induction readSequence bits low high following bytes with
  | case1 | case2 | case4 => simp
  | case3 => simp only [List.length_cons]; omega

/-- The characters of bytes, none standing for an ill-formed spot. -/
def decodeUtf8 : List UInt8 → List (Option Char)
  | [] => []
  | byte :: rest =>
    match leadByte? byte.toNat with
    | none => none :: decodeUtf8 rest
    | some lead =>
      (readSequence lead.bits lead.low lead.high lead.following rest).1 ::
        decodeUtf8 (readSequence lead.bits lead.low lead.high lead.following rest).2
termination_by bytes => bytes.length
decreasing_by
  · simp
  · exact Nat.lt_succ_of_le (readSequence_length_le ..)

/-- The text of well-formed bytes. -/
def utf8? (bytes : List UInt8) : Option String :=
  ((decodeUtf8 bytes).mapM id).map String.ofList

/-- The text of bytes, a replacement character standing for every ill-formed spot. -/
def utf8Lossy (bytes : List UInt8) : String :=
  String.ofList ((decodeUtf8 bytes).map fun character => character.getD '\ufffd')

end ResourceQuery.Text
