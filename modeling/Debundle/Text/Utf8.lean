/-!
# Reading bytes as text

Text is stored in UTF-8.  Bytes that are not valid are read all the same: each longest
start of a sequence that goes wrong is read as one replacement character, and reading
goes on with the byte that did not fit.
-/

namespace Debundle.Utf8

/-- What stands for bytes that cannot be read. -/
def replacement : Char := Char.ofNat 0xfffd

/-- What a first byte announces. -/
structure Lead where
  /-- The bits of the character that the first byte holds. -/
  bits : Nat
  /-- The number of bytes that follow. -/
  following : Nat
  /-- The bounds of the first of them; the others are between `0x80` and `0xbf`. -/
  low : Nat
  high : Nat

/-- The meaning of a byte above `0x7f` at the start of a sequence. -/
def lead? (byte : Nat) : Option Lead :=
  if 0xc2 ≤ byte ∧ byte ≤ 0xdf then some ⟨byte - 0xc0, 1, 0x80, 0xbf⟩
  else if byte = 0xe0 then some ⟨0, 2, 0xa0, 0xbf⟩
  else if byte = 0xed then some ⟨0xd, 2, 0x80, 0x9f⟩
  else if 0xe1 ≤ byte ∧ byte ≤ 0xef then some ⟨byte - 0xe0, 2, 0x80, 0xbf⟩
  else if byte = 0xf0 then some ⟨0, 3, 0x90, 0xbf⟩
  else if 0xf1 ≤ byte ∧ byte ≤ 0xf3 then some ⟨byte - 0xf0, 3, 0x80, 0xbf⟩
  else if byte = 0xf4 then some ⟨4, 3, 0x80, 0x8f⟩
  else none

/-- The character that starts with `bits` and is completed by `count` more bytes, and
what follows it; no character if a byte does not fit. -/
def complete (bits : Nat) : Nat → Nat → Nat → List UInt8 → Option Char × List UInt8
  | 0, _, _, rest => (some (Char.ofNat bits), rest)
  | _ + 1, _, _, [] => (none, [])
  | count + 1, low, high, byte :: rest =>
    if low ≤ byte.toNat ∧ byte.toNat ≤ high then
      complete (bits * 0x40 + (byte.toNat - 0x80)) count 0x80 0xbf rest
    else (none, byte :: rest)

theorem length_complete_le (bits count low high : Nat) (bytes : List UInt8) :
    (complete bits count low high bytes).2.length ≤ bytes.length := by
  induction count generalizing bits low high bytes with
  | zero => simp [complete]
  | succ count ih =>
    cases bytes with
    | nil => simp [complete]
    | cons byte rest =>
      simp only [complete]
      split
      · exact Nat.le_trans (ih ..) (by simp)
      · simp

/-- Reads bytes. -/
def decode : List UInt8 → List Char
  | [] => []
  | byte :: rest =>
    if byte.toNat < 0x80 then Char.ofNat byte.toNat :: decode rest
    else
      match lead? byte.toNat with
      | none => replacement :: decode rest
      | some lead =>
        let found := complete lead.bits lead.following lead.low lead.high rest
        found.1.getD replacement :: decode found.2
termination_by bytes => bytes.length
decreasing_by
  · simp
  · simp
  · exact Nat.lt_succ_of_le (length_complete_le ..)

/-- Line ends of all systems become single line feeds. -/
def unifyNewlines : List Char → List Char
  | [] => []
  | '\r' :: '\n' :: rest => '\n' :: unifyNewlines rest
  | '\r' :: rest => '\n' :: unifyNewlines rest
  | char :: rest => char :: unifyNewlines rest

/-- The text in the bytes of a file. -/
def textOf (bytes : ByteArray) : String :=
  String.ofList (unifyNewlines (decode bytes.toList))

end Debundle.Utf8
