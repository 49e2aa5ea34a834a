/-!
# UTF-8

Decoding reads bytes one at a time and keeps, between two bytes, what the character under way still
needs. A byte that cannot continue the character under way ends it as malformed and is then read
afresh, so each malformed stretch is a longest part of a well-formed sequence (or a single byte
that starts none), and no malformed stretch reaches into the characters around it. A lenient
reader shows each stretch as one replacement character; a strict reader refuses the text.
-/

namespace Lineage.Text.Utf8

/-- What has been read of the character under way. -/
inductive Progress where
  /-- Between two characters. -/
  | between
  /--
  Within a character: `missing` further bytes are needed beside the next one, which must lie between
  `low` and `high`; `code` is made of the bits read so far.
  -/
  | within (code missing low high : Nat)
  deriving Repr, DecidableEq

/-- The effect of a byte that starts a character: what is complete with it and what is under way. -/
def start (byte : UInt8) : List (Option Char) × Progress :=
  let b := byte.toNat
  if b < 0x80 then ([some (Char.ofNat b)], .between)
  else if b < 0xC2 then ([none], .between)
  else if b < 0xE0 then ([], .within (b - 0xC0) 0 0x80 0xBF)
  else if b = 0xE0 then ([], .within (b - 0xE0) 1 0xA0 0xBF)
  else if b = 0xED then ([], .within (b - 0xE0) 1 0x80 0x9F)
  else if b < 0xF0 then ([], .within (b - 0xE0) 1 0x80 0xBF)
  else if b = 0xF0 then ([], .within (b - 0xF0) 2 0x90 0xBF)
  else if b < 0xF4 then ([], .within (b - 0xF0) 2 0x80 0xBF)
  else if b = 0xF4 then ([], .within (b - 0xF0) 2 0x80 0x8F)
  else ([none], .between)

/-- The effect of the next byte: the characters (`none`: malformed) that end before or with it. -/
def step : Progress → UInt8 → List (Option Char) × Progress
  | .between, byte => start byte
  | .within code missing low high, byte =>
      let b := byte.toNat
      if low ≤ b ∧ b ≤ high then
        let code := code * 64 + (b - 0x80)
        match missing with
        | 0 => ([some (Char.ofNat code)], .between)
        | missing + 1 => ([], .within code missing 0x80 0xBF)
      else (none :: (start byte).1, (start byte).2)

/-- The characters of a byte sequence, with `none` for each malformed stretch. -/
def decodeFrom : Progress → List UInt8 → List (Option Char)
  | .between, [] => []
  | .within .., [] => [none]
  | progress, byte :: bytes => (step progress byte).1 ++ decodeFrom (step progress byte).2 bytes

/-- Decodes, showing each malformed stretch as one replacement character. -/
def decodeLenient (bytes : List UInt8) : List Char :=
  (decodeFrom .between bytes).map (·.getD '\uFFFD')

/-- Decodes a well-formed byte sequence. -/
def decode? (bytes : List UInt8) : Option (List Char) :=
  (decodeFrom .between bytes).mapM id

/-- The bytes of one character. -/
def encodeChar (c : Char) : List UInt8 :=
  let n := c.toNat
  if n < 0x80 then [n.toUInt8]
  else if n < 0x800 then [(0xC0 + n / 64).toUInt8, (0x80 + n % 64).toUInt8]
  else if n < 0x10000 then
    [(0xE0 + n / 4096).toUInt8, (0x80 + n / 64 % 64).toUInt8, (0x80 + n % 64).toUInt8]
  else
    [(0xF0 + n / 262144).toUInt8, (0x80 + n / 4096 % 64).toUInt8, (0x80 + n / 64 % 64).toUInt8,
      (0x80 + n % 64).toUInt8]

/-- The bytes of a text. -/
def encode (text : List Char) : List UInt8 := text.flatMap encodeChar

end Lineage.Text.Utf8
