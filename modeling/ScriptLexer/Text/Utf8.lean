import ScriptLexer.Text

/-! Strict UTF-8. Decoding reads one byte at a time; a sequence that has begun is kept in a
`Pending` record until its last byte arrives. Overlong forms, surrogates and code points above
U+10FFFF are excluded by the range of the byte after the lead. -/
namespace ScriptLexer.Utf8

inductive Flaw where
  | invalidStart
  | invalidContinuation
  | unexpectedEnd
  deriving DecidableEq, Repr

/-- The first ill-formed sequence: where it begins, its first byte, and how many bytes of it could
still begin a character. -/
structure Malformed where
  position : Nat
  lead : UInt8
  length : Nat
  flaw : Flaw
  deriving DecidableEq, Repr

/-- A character under way. `low` and `high` bound the next byte, `wanted` counts the bytes after
that one. -/
structure Pending where
  lead : UInt8
  taken : Nat
  code : Nat
  wanted : Nat
  low : Nat
  high : Nat
  deriving DecidableEq, Repr

/-- What the first byte of a longer sequence promises. -/
def begin? (byte : UInt8) : Option Pending :=
  let b := byte.toNat
  if b < 0xC2 then none
  else if b < 0xE0 then some ⟨byte, 1, b - 0xC0, 0, 0x80, 0xBF⟩
  else if b = 0xE0 then some ⟨byte, 1, 0, 1, 0xA0, 0xBF⟩
  else if b = 0xED then some ⟨byte, 1, 0xD, 1, 0x80, 0x9F⟩
  else if b < 0xF0 then some ⟨byte, 1, b - 0xE0, 1, 0x80, 0xBF⟩
  else if b = 0xF0 then some ⟨byte, 1, 0, 2, 0x90, 0xBF⟩
  else if b < 0xF4 then some ⟨byte, 1, b - 0xF0, 2, 0x80, 0xBF⟩
  else if b = 0xF4 then some ⟨byte, 1, 4, 2, 0x80, 0x8F⟩
  else none

/-- One more byte of a character: the character, or what is still to come. -/
inductive Progress where
  | complete (c : Char)
  | more (pending : Pending)
  | refused

def Pending.add (pending : Pending) (byte : UInt8) : Progress :=
  let b := byte.toNat
  if pending.low ≤ b ∧ b ≤ pending.high then
    let code := pending.code * 64 + (b - 0x80)
    match pending.wanted with
    | 0 => .complete (Char.ofNat code)
    | wanted + 1 => .more { pending with
        taken := pending.taken + 1, code, wanted, low := 0x80, high := 0xBF }
  else .refused

def Pending.malformed (pending : Pending) (next : Nat) (flaw : Flaw) : Malformed :=
  ⟨next - pending.taken, pending.lead, pending.taken, flaw⟩

/-- `next` is the offset of the first byte of the list, `pending` the character it continues. -/
def decodeFrom (next : Nat) : Option Pending → List UInt8 → Except Malformed Text
  | none, [] => .ok []
  | some pending, [] => .error (pending.malformed next .unexpectedEnd)
  | none, byte :: rest =>
    if byte.toNat < 0x80 then
      (decodeFrom (next + 1) none rest).map (Char.ofNat byte.toNat :: ·)
    else match begin? byte with
      | some pending => decodeFrom (next + 1) (some pending) rest
      | none => .error ⟨next, byte, 1, .invalidStart⟩
  | some pending, byte :: rest =>
    match pending.add byte with
    | .complete c => (decodeFrom (next + 1) none rest).map (c :: ·)
    | .more pending => decodeFrom (next + 1) (some pending) rest
    | .refused => .error (pending.malformed next .invalidContinuation)

def decode (bytes : List UInt8) : Except Malformed Text := decodeFrom 0 none bytes

def encode (text : Text) : List UInt8 := text.flatMap String.utf8EncodeChar

def Flaw.description : Flaw → Text
  | .invalidStart => "invalid start byte".toList
  | .invalidContinuation => "invalid continuation byte".toList
  | .unexpectedEnd => "unexpected end of data".toList

/-- A single byte is shown by its value, a longer sequence by its first and last offset. -/
def Malformed.message (m : Malformed) : Text :=
  "'utf-8' codec can't decode ".toList
    ++ (if m.length = 1 then
          "byte 0x".toList ++ hex 2 m.lead.toNat ++ " in position ".toList ++ decimal m.position
        else
          "bytes in position ".toList ++ decimal m.position ++ '-'
            :: decimal (m.position + m.length - 1))
    ++ ": ".toList ++ m.flaw.description

end ScriptLexer.Utf8
