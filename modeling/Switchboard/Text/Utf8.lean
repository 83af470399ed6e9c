/-!
# Texts as bytes

A text on a byte stream is its UTF-8 encoding. `Text.bytes` writes it, `Text.ofBytes?` reads it
and refuses bytes that encode no text; `Text.ofBytes?_eq_some_iff` says that the two undo each
other.
-/

namespace Switchboard
namespace Text

/-- The UTF-8 encoding of a text. -/
def bytes (s : String) : List UInt8 :=
  s.toByteArray.data.toList

/-- The text that the bytes encode, if they are valid UTF-8. -/
def ofBytes? (bs : List UInt8) : Option String :=
  String.fromUTF8? ⟨bs.toArray⟩

theorem ofBytes?_bytes (s : String) : ofBytes? (bytes s) = some s := by
  simp only [ofBytes?, bytes, String.fromUTF8?, Array.toArray_toList]
  exact dif_pos s.isValidUTF8

theorem bytes_of_ofBytes? {bs : List UInt8} {s : String} (h : ofBytes? bs = some s) :
    bytes s = bs := by
  simp only [ofBytes?, String.fromUTF8?] at h
  split at h
  · rw [← Option.some.inj h]
    rfl
  · simp at h

/-- **Reading accepts exactly what writing produces.** -/
theorem ofBytes?_eq_some_iff {bs : List UInt8} {s : String} : ofBytes? bs = some s ↔ bytes s = bs :=
  ⟨bytes_of_ofBytes?, fun h => h ▸ ofBytes?_bytes s⟩

/-- The bytes of characters below 256, one each; meant for ASCII. -/
def ascii (cs : List Char) : List UInt8 :=
  cs.map Char.toUInt8

end Text
end Switchboard
