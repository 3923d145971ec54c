namespace Minilang.Text

def replacement : Nat := 0xfffd

def isContinuation (b : UInt8) : Bool := 0x80 ≤ b && b ≤ 0xbf

-- The least and greatest second byte after a leading byte. The bounds leave out
-- overlong forms, surrogates and code points above 0x10ffff.
def secondByteBounds (lead : UInt8) : UInt8 × UInt8 :=
  if lead == 0xe0 then (0xa0, 0xbf)
  else if lead == 0xed then (0x80, 0x9f)
  else if lead == 0xf0 then (0x90, 0xbf)
  else if lead == 0xf4 then (0x80, 0x8f)
  else (0x80, 0xbf)

def announcedWidth (lead : UInt8) : Option Nat :=
  if lead < 0x80 then some 1
  else if 0xc2 ≤ lead && lead ≤ 0xdf then some 2
  else if 0xe0 ≤ lead && lead ≤ 0xef then some 3
  else if 0xf0 ≤ lead && lead ≤ 0xf4 then some 4
  else none

def low6 (b : UInt8) : Nat := b.toNat % 64

def decodeFirst (bytes : List UInt8) : Nat × Nat :=
  match bytes with
  | [] => (replacement, 0)
  | lead :: rest =>
    match announcedWidth lead, rest with
    | some 1, _ => (lead.toNat, 1)
    | some 2, b :: _ =>
      if isContinuation b then (lead.toNat % 32 * 64 + low6 b, 2) else (replacement, 1)
    | some 3, b :: c :: _ =>
      let (least, greatest) := secondByteBounds lead
      if least ≤ b && b ≤ greatest && isContinuation c then
        (lead.toNat % 16 * 4096 + low6 b * 64 + low6 c, 3)
      else (replacement, 1)
    | some 4, b :: c :: d :: _ =>
      let (least, greatest) := secondByteBounds lead
      if least ≤ b && b ≤ greatest && isContinuation c && isContinuation d then
        (lead.toNat % 8 * 262144 + low6 b * 4096 + low6 c * 64 + low6 d, 4)
      else (replacement, 1)
    | _, _ => (replacement, 1)

def bytesOf (text : String) : List UInt8 := text.toUTF8.toList

-- Every decoding step takes at least one byte, so the number of bytes bounds the steps.
def decodeSteps : Nat → List UInt8 → List (Option Char)
  | 0, _ => []
  | _, [] => []
  | n + 1, bytes =>
    let (code, width) := decodeFirst bytes
    let entry := if code == replacement && width == 1 then none else some (Char.ofNat code)
    entry :: decodeSteps n (bytes.drop width)

def decodeAll (bytes : List UInt8) : List (Option Char) := decodeSteps bytes.length bytes

def decodeLossy (bytes : List UInt8) : String :=
  String.ofList ((decodeAll bytes).map (·.getD (Char.ofNat replacement)))

def decode? (bytes : List UInt8) : Option (List Char) := (decodeAll bytes).mapM id

end Minilang.Text
