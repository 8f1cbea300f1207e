/-!
# Reading bytes as text

A source arrives as bytes and is text only if they are well-formed UTF-8. A refusal names the first
sequence that is not: where it starts, and how many of its bytes could still have been the start of a
character, or that the bytes ended while it could.

* `decode_encode` — every text is read back from its own bytes.
* `decode_eq_ok_iff` — reading succeeds exactly on the bytes of some text.
-/

namespace SwiftColoring.Utf8

/-- Why bytes are not text. -/
inductive Fault where
  /-- From `index` on, `count` bytes start a character that the next byte rules out. -/
  | malformed (count index : Nat)
  /-- The bytes end inside a character that starts at `index`. -/
  | incomplete (index : Nat)
  deriving DecidableEq, Repr

/-- The fault in words. -/
def Fault.message : Fault → String
  | .malformed count index => s!"invalid utf-8 sequence of {count} bytes from index {index}"
  | .incomplete index => s!"incomplete utf-8 byte sequence from index {index}"

/-- The number of bytes that a character with this first byte takes, or zero if none starts so. -/
def sequenceLength (lead : UInt8) : Nat :=
  if lead < 0x80 then 1
  else if lead < 0xC2 then 0
  else if lead < 0xE0 then 2
  else if lead < 0xF0 then 3
  else if lead < 0xF5 then 4
  else 0

/-- The least and the greatest second byte after this first byte. The bounds shut out forms longer
than needed, surrogates, and values above the last code point. -/
def secondBounds (lead : UInt8) : UInt8 × UInt8 :=
  if lead = 0xE0 then (0xA0, 0xBF)
  else if lead = 0xED then (0x80, 0x9F)
  else if lead = 0xF0 then (0x90, 0xBF)
  else if lead = 0xF4 then (0x80, 0x8F)
  else (0x80, 0xBF)

/-- How the bytes of one character turn out. -/
inductive Reading where
  | complete
  | broken (accepted : Nat)
  | cutShort

/-- Reads `owed` more bytes of a character of which `accepted` are read, the next one within
`bounds` and the later ones any continuation bytes. -/
def readTail (accepted : Nat) (bounds : UInt8 × UInt8) : Nat → List UInt8 → Reading
  | 0, _ => .complete
  | _ + 1, [] => .cutShort
  | owed + 1, b :: rest =>
    if bounds.1 ≤ b ∧ b ≤ bounds.2 then readTail (accepted + 1) (0x80, 0xBF) owed rest
    else .broken accepted

/-- Reads one character from its first byte and the bytes behind it. -/
def readChar (lead : UInt8) (rest : List UInt8) : Reading :=
  match sequenceLength lead with
  | 0 => .broken 1
  | owed + 1 => readTail 1 (secondBounds lead) owed rest

/-- The first fault in bytes that lie from `index` on, of which the next `skip` are known good. -/
def faultFrom (skip index : Nat) : List UInt8 → Fault
  | [] => .incomplete index
  | b :: rest =>
    match skip with
    -- a byte of a character already read
    | skip + 1 => faultFrom skip (index + 1) rest
    | 0 =>
      match readChar b rest with
      | .complete => faultFrom (sequenceLength b - 1) (index + 1) rest
      | .broken accepted => .malformed accepted index
      | .cutShort => .incomplete index

/-- The text of well-formed bytes, or the first fault. -/
def decode (bytes : ByteArray) : Except Fault (List Char) :=
  if h : bytes.validateUTF8 then
    .ok (String.ofByteArray bytes (ByteArray.validateUTF8_eq_true_iff.mp h)).toList
  else
    .error (faultFrom 0 0 bytes.toList)

theorem decode_encode (text : List Char) : decode text.utf8Encode = .ok text := by
  have h : text.utf8Encode.validateUTF8 = true :=
    ByteArray.validateUTF8_eq_true_iff.mpr ⟨text, rfl⟩
  rw [decode, dif_pos h]
  congr 1
  exact String.toList_ofList

theorem decode_eq_ok_iff {bytes : ByteArray} {text : List Char} :
    decode bytes = .ok text ↔ bytes = text.utf8Encode := by
  constructor
  · intro h
    unfold decode at h
    split at h
    case isTrue hv =>
      obtain ⟨t, ht⟩ := ByteArray.validateUTF8_eq_true_iff.mp hv
      subst ht
      have := decode_encode t
      rw [decode, dif_pos hv] at this
      rw [this] at h
      rw [Except.ok.inj h]
    case isFalse => simp at h
  · rintro rfl
    exact decode_encode text

end SwiftColoring.Utf8
