/-! Text in bytes. What is not UTF-8 can still be read: each ill-formed part becomes one replacement
    character. -/

namespace Scaffold.Text

def isContinuation (b : UInt8) : Bool := 0x80 ≤ b && b ≤ 0xBF

/-- The length of a sequence that begins with `a`, and the least and greatest second byte. -/
def sequenceShape? (a : UInt8) : Option (Nat × UInt8 × UInt8) :=
  if 0xC2 ≤ a && a ≤ 0xDF then some (2, 0x80, 0xBF)
  else if a = 0xE0 then some (3, 0xA0, 0xBF)
  else if a = 0xED then some (3, 0x80, 0x9F)
  else if 0xE1 ≤ a && a ≤ 0xEF then some (3, 0x80, 0xBF)
  else if a = 0xF0 then some (4, 0x90, 0xBF)
  else if 0xF1 ≤ a && a ≤ 0xF3 then some (4, 0x80, 0xBF)
  else if a = 0xF4 then some (4, 0x80, 0x8F)
  else none

def continuationBits (b : UInt8) : Nat := b.toNat % 64

/-- The character at the start of `a :: rest`, if it is well formed, and how many bytes of `rest`
    belong to it or to the ill-formed part. -/
def firstCharacter (a : UInt8) (rest : List UInt8) : Option Char × Nat :=
  if a < 0x80 then (some (Char.ofNat a.toNat), 0)
  else match sequenceShape? a with
    | none => (none, 0)
    | some (size, low, high) =>
      match rest with
      | b :: rest =>
        -- the bounds of the second byte leave out long forms and surrogates
        if low ≤ b && b ≤ high then
          if size = 2 then (some (Char.ofNat (a.toNat % 32 * 64 + continuationBits b)), 1)
          else match rest with
            | c :: rest =>
              if isContinuation c then
                if size = 3 then
                  (some (Char.ofNat ((a.toNat % 16 * 64 + continuationBits b) * 64
                    + continuationBits c)), 2)
                else match rest with
                  | d :: _ =>
                    if isContinuation d then
                      (some (Char.ofNat (((a.toNat % 8 * 64 + continuationBits b) * 64
                        + continuationBits c) * 64 + continuationBits d)), 3)
                    else (none, 2)
                  | [] => (none, 2)
              else (none, 1)
            | [] => (none, 1)
        else (none, 0)
      | [] => (none, 0)

/-- The characters of a byte sequence, with U+FFFD for each ill-formed part. -/
def repairedChars : List UInt8 → List Char
  | [] => []
  | a :: rest =>
    (firstCharacter a rest).1.getD '\uFFFD' :: repairedChars (rest.drop (firstCharacter a rest).2)
termination_by bytes => bytes.length
decreasing_by simp only [List.length_drop, List.length_cons]; omega

/-- The text that the bytes hold, if they are UTF-8. -/
def decode? (bytes : ByteArray) : Option String := String.fromUTF8? bytes

/-- The text that the bytes hold, with U+FFFD for each ill-formed part. -/
def decodeRepaired (bytes : ByteArray) : String :=
  match decode? bytes with
  | some s => s
  | none => String.ofList (repairedChars bytes.toList)

def encode (s : String) : ByteArray := s.toUTF8

end Scaffold.Text
