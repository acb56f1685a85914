import SignedFacts.Proofs.Record.RoundTrip
import SignedFacts.Proofs.Record.Spelling
import SignedFacts.Proofs.Sample.Tree

/-!
# Documents with a payload in any style

A document puts the text of a payload among the other fields of a record.  If the
payload is a tree without repeated or reserved keys and with not too many levels, the
document is read as one and the same record in every style (`parse_document`).  The payload
of the record is what the tree means.
-/

namespace SignedFacts.Sample

/-! ## The tree of a document -/

/-- The members of a document. -/
def documentMembers (payload : Json) (createdAt : Timestamp) (key signature : String) :
    List (String × Json) :=
  [(Field.payload.name, payload), (Field.createdAt.name, createdAt.toValue.toJson),
    (Field.signerKey.name, .string key), (Field.signature.name, .string signature)]

section Document

variable {text : List Char} {payload : Json} {createdAt : Timestamp} {key signature : String}

/-- A document spells its members. -/
theorem spells_document (spelled : Json.Spells text payload) :
    Json.Spells (document text createdAt key signature)
      (.object (documentMembers payload createdAt key signature)) := by
  have member (name : String) {text : List Char} {json : Json} (spelled : Json.Spells text json) :
      Json.SpellsMember (Text.quoted name ++ ':' :: text) (name, json) :=
    Value.spells_member name (Value.padded spelled)
  have last := Json.SpellsMembers.one (member "signature" (Text.spells_quoted signature))
  have others := Json.SpellsMembers.more (member "signer_public_key" (Text.spells_quoted key)) last
  have more := Json.SpellsMembers.more (member "created_at" createdAt.toValue.spells_chars) others
  have members := Json.SpellsMembers.more (member "payload" spelled) more
  have first : "\x7b\"payload\":".toList = '\x7b' :: (Text.quoted "payload" ++ [':']) := rfl
  have second : ",\"created_at\":".toList = ',' :: (Text.quoted "created_at" ++ [':']) := rfl
  have third : ",\"signer_public_key\":".toList
      = ',' :: (Text.quoted "signer_public_key" ++ [':']) := rfl
  have fourth : ",\"signature\":".toList = ',' :: (Text.quoted "signature" ++ [':']) := rfl
  have whole := Json.Spells.object members
  unfold document
  simp only [first, second, third, fourth, List.append_assoc, List.cons_append,
    List.nil_append] at whole ⊢
  exact whole

/-- Besides its payload a document holds scalars. -/
theorem everywhere_document {property : Nat → Json → Prop}
    (root : property 1 (.object (documentMembers payload createdAt key signature)))
    (scalar : ∀ json, json.isContainer = false → property 2 json)
    (inside : payload.Everywhere property 2) :
    (Json.object (documentMembers payload createdAt key signature)).Everywhere property 1 := by
  have single {json : Json} (plain : json.isContainer = false) : json.Everywhere property 2 :=
    Json.everywhere_of_scalar plain (scalar json plain)
  refine Json.everywhere_object.2 ⟨root, ?_⟩
  simp only [documentMembers, List.forall_mem_cons]
  exact ⟨inside, single (Record.scalar_toJson _), single rfl, single rfl, nofun⟩

theorem document_documentMembers :
    Document (documentMembers payload createdAt key signature) payload createdAt.toValue.toJson
      (.string key) (.string signature) where
  known := by
    simp only [documentMembers, List.forall_mem_cons]
    exact ⟨⟨.payload, rfl⟩, ⟨.createdAt, rfl⟩, ⟨.signerKey, rfl⟩, ⟨.signature, rfl⟩, nofun⟩
  payload := by simp [documentMembers]
  createdAt := by simp [documentMembers]
  signerKey := by simp [documentMembers]
  signature := by simp [documentMembers]

/-- No field of a document is repeated or reserved. -/
theorem nodup_documentMembers :
    ((documentMembers payload createdAt key signature).map (·.1)).Nodup :=
  show ["payload", "created_at", "signer_public_key", "signature"].Nodup by decide

theorem keysPlain_documentMembers :
    (Json.object (documentMembers payload createdAt key signature)).KeysPlain := by
  have names : ∀ name ∈ ["payload", "created_at", "signer_public_key", "signature"],
      Json.isReserved name = false := by decide
  exact fun member placed => names _ (List.mem_map_of_mem (f := (·.1)) placed)

theorem keys_of_scalar {json : Json} (scalar : json.isContainer = false) :
    json.KeysDistinct ∧ json.KeysPlain := by
  cases json with
  | object members => cases scalar
  | _ => exact ⟨trivial, trivial⟩

end Document

/-! ## Reading -/

/-- A document is read as a record if the payload in it can be read as that of the record. -/
theorem parse_of_spells {text : List Char} {payload : Json} {record : Record}
    (spelled : Json.Spells text payload)
    (within : payload.Everywhere (fun level _ => level ≤ 64) 2)
    (distinct : payload.Everywhere (fun _ node => node.KeysDistinct) 2)
    (plain : payload.Everywhere (fun _ node => node.KeysPlain) 2)
    (converted : Value.ofJson .last Record.maxDepth 2 payload = .ok record.payload.toValue)
    (filled : record.createdAt ≠ .label "") :
    Record.parse (Utf8.octets
      (document text record.createdAt record.signerKey.text record.signature.text))
      = .ok record := by
  have padded := Value.padded
    (@spells_document _ _ record.createdAt record.signerKey.text record.signature.text spelled)
  rw [Record.parse_octets, Record.ofText_of_spells padded ?unique ?plain, if_pos ?nests]
  · exact (Record.ofJson_eq_ok_iff nodup_documentMembers).2
      ⟨_, _, _, _, document_documentMembers, converted, Record.timestampOf_toJson filled, rfl, rfl⟩
  case nests =>
    exact everywhere_document (fun _ => by decide)
      (fun _ scalar container => by simp [scalar] at container)
      (within.mono fun level _ shallow _ => shallow.trans (by decide))
  case unique =>
    exact everywhere_document nodup_documentMembers (fun _ scalar => (keys_of_scalar scalar).1)
      distinct
  case plain =>
    exact everywhere_document keysPlain_documentMembers (fun _ scalar => (keys_of_scalar scalar).2)
      plain

/-- A tree in which no key is repeated or reserved, and which is not too deep for a payload. -/
structure Tree.Regular (tree : Tree) : Prop where
  within : ∀ node ∈ tree.nodes 2, node.1 ≤ 64
  distinct : ∀ node ∈ tree.nodes 2, node.2.KeysDistinct
  plain : ∀ node ∈ tree.nodes 2, node.2.KeysPlain

/-- In every style a document with such a tree for its payload is read, and as the same record.
The record has the fields that were put into the document, and its payload is what the tree
means. -/
theorem parse_document {members : List (String × Tree)} {createdAt : Timestamp}
    (regular : (Tree.object members).Regular) (filled : createdAt ≠ .label "")
    (key signature : String) :
    ∃ record : Record, record.createdAt = createdAt ∧ record.signerKey = ⟨key⟩
      ∧ record.signature = ⟨signature⟩
      ∧ record.payload.toValue = (Tree.object members).toValue
      ∧ (Tree.object members).Means record.payload.toValue
      ∧ ∀ style : Style, Record.parse (Utf8.octets
          (document ((Tree.object members).chars style) createdAt key signature)) = .ok record := by
  obtain ⟨within, distinct, plain⟩ := regular
  have converted (style : Style) :
      Value.ofJson .last Record.maxDepth 2 ((Tree.object members).toJson style)
        = .ok (Tree.object members).toValue := Tree.ofJson_toJson within distinct
  obtain ⟨payload, same⟩ : ∃ payload : Payload, payload.toValue = (Tree.object members).toValue :=
    ⟨⟨_, Value.isOrdered_of_ofJson _ (converted .compact)⟩, rfl⟩
  rw [← same] at converted
  refine ⟨⟨payload, createdAt, ⟨key⟩, ⟨signature⟩⟩, rfl, rfl, rfl, same,
    same ▸ Tree.means_toValue distinct, fun style => ?_⟩
  have read := @parse_of_spells _ _ ⟨payload, createdAt, ⟨key⟩, ⟨signature⟩⟩
    (Tree.spells_chars style _) (Tree.everywhere_toJson within)
    (Tree.everywhere_toJson fun node member => (distinct node member).toJson style)
    (Tree.everywhere_toJson fun node member => (plain node member).toJson style)
    (converted style) filled
  exact read

/-! ## A payload with all kinds of things in it -/

/-- Members with the least units at the largest scale, a key that has to be escaped, and objects
inside of a list. -/
def variousMembers : List (String × Tree) :=
  [("z", .decimal (-9223372036854775808) 255),
    ("\"\n", .array [.null, .object [("b", .decimal 1500 2), ("a", .int (-3))], .object []])]

theorem regular_variousMembers : (Tree.object variousMembers).Regular :=
  ⟨by decide, by decide, by decide⟩

/-- The shortest spelling of this payload and the one with everything in it are read as the
same. -/
theorem parse_document_variousMembers :
    ∃ record : Record,
      record.payload.toValue = .mapping [
        ("\"\n", .sequence [.null,
          .mapping [("a", .number (.ofInt (-3))), ("b", .number (.ofInt 15))], .mapping []]),
        ("z", .number (.make (-9223372036854775808) 255))]
      ∧ Record.parse (Utf8.octets (document ((Tree.object variousMembers).chars .compact)
          (.label "t") "k" "s")) = .ok record
      ∧ Record.parse (Utf8.octets (document
          ((Tree.object variousMembers).chars ⟨true, true, true, true⟩) (.label "t") "k" "s"))
        = .ok record := by
  obtain ⟨record, _, _, _, payload, _, read⟩ :=
    @parse_document _ (.label "t") regular_variousMembers (by decide) "k" "s"
  exact ⟨record, payload, read _, read _⟩

end SignedFacts.Sample
