import EscrowMix.Codec

/-!
The token that the three parties of a session share: sixteen bytes, shown as a UUID. Four written
forms are read: with hyphens, without them, with hyphens in braces, and with hyphens after
`urn:uuid:`.
-/

namespace EscrowMix

/-- The identifier of a session. -/
structure SessionId where
  uuid : FixedBytes 16
deriving DecidableEq

namespace SessionId

/-- Hexadecimal digits in groups of 8, 4, 4, 4 and 12, with hyphens between them. -/
def text (i : SessionId) : String :=
  let part (first past : Nat) := Hex.encode ((i.uuid.bytes.drop first).take (past - first))
  part 0 4 ++ "-" ++ part 4 6 ++ "-" ++ part 6 8 ++ "-" ++ part 8 10 ++ "-" ++ part 10 16

/-- Reads thirty-two digits. -/
def parseSimple (cs : List Char) : Option SessionId := do
  return ⟨← FixedBytes.ofBytes? (← Hex.decodeChars cs)⟩

/-- Reads thirty-two digits with hyphens between the groups. -/
def parseHyphenated (cs : List Char) : Option SessionId :=
  if [8, 13, 18, 23].all fun i => cs[i]? == some '-' then
    parseSimple (cs.take 8 ++ (cs.drop 9).take 4 ++ (cs.drop 14).take 4 ++ (cs.drop 19).take 4
      ++ cs.drop 24)
  else none

/-- The label before a hyphenated form; any case will do. -/
def label : List Char := "urn:uuid:".toList

/-- Reads one of the four written forms, told apart by their lengths. -/
def parse? (s : String) : Option SessionId :=
  let cs := s.toList
  match cs.length with
  | 32 => parseSimple cs
  | 36 => parseHyphenated cs
  | 38 =>
    if cs.head? == some '{' && cs.getLast? == some '}' then parseHyphenated (cs.drop 1).dropLast
    else none
  | 45 =>
    if (cs.take 9).map Char.toLower == label then parseHyphenated (cs.drop 9) else none
  | _ => none

/-- Sets the version of a random identifier in byte 6 and its variant in byte 8. -/
def ofRandom (bytes : FixedBytes 16) : SessionId :=
  let stamp (i : Nat) (f : UInt8 → UInt8) (bs : Bytes) := bs.modify i f
  ⟨⟨stamp 8 (fun b => b &&& 0x3F ||| 0x80) (stamp 6 (fun b => b &&& 0x0F ||| 0x40) bytes.bytes),
    by simp [stamp, bytes.length_eq]⟩⟩

/-- The order of identifiers is that of their bytes. -/
def before (a b : SessionId) : Bool := Bytes.before a.uuid.bytes b.uuid.bytes

instance : Codec SessionId where
  encode i := Codec.encode i.uuid
  size i := Codec.size i.uuid
  read := do return ⟨← Codec.read⟩

end SessionId

end EscrowMix
