/-!
# Text in bytes

A program writes bytes, and an encoding says which text they stand for.  Not all bytes stand for a
text in every encoding.
-/

namespace BuildMeta.Text

/-- A way of writing text in bytes. -/
inductive Encoding where
  | utf8
  | ascii
  | latin1
deriving Repr, BEq, DecidableEq, Inhabited

namespace Encoding

/-- The text in which every byte stands for a character. -/
def ofBytes (bytes : List UInt8) : String :=
  String.ofList (bytes.map fun b => Char.ofNat b.toNat)

/-- The text that bytes stand for, if they stand for one. -/
def decode? : Encoding → List UInt8 → Option String
  | utf8, bytes => String.fromUTF8? ⟨bytes.toArray⟩
  | ascii, bytes => if bytes.all (· < 128) then some (ofBytes bytes) else none
  | latin1, bytes => some (ofBytes bytes)

/-- Every text can be written in UTF-8 and read back. -/
theorem decode?_utf8 (s : String) : utf8.decode? s.toUTF8.data.toList = some s := by
  have hbytes : (⟨s.toUTF8.data.toList.toArray⟩ : ByteArray) = s.toByteArray := rfl
  rw [decode?, hbytes, String.fromUTF8?, dif_pos s.isValidUTF8]
  rfl

end Encoding

end BuildMeta.Text
