import QueryPipeline.Proofs.Aggregation.Checked
import QueryPipeline.Proofs.ObjectId

namespace QueryPipeline.Association

inductive Identifies (id : ObjectId) : Value → Prop
  | self : Identifies id (.objectId id)
  | text (quoted : ObjectId.Quoted chars text) (hex : ObjectId.Hex chars id.bytes) :
      Identifies id (.text text)

def ownedBy (association : Association) (value : Value) : Association :=
  { association with ownerId := value }

/-- All is in order that is looked at before the owner's identifier is. -/
structure Reaches (association : Association) (registry : Registry) (query : Query)
    (link : Link) (owner child linking : Collection) : Prop where
  normal : ∃ normal, query.normalize Query.defaultMaxDepth = .ok normal
  link_eq : association.link.resolve = .ok link
  owner_eq : registry.locate association.owner = .ok owner
  child_eq : registry.locate association.child = .ok child
  linking_eq : registry.locate (.named link.linkingCollection) = .ok linking

variable {association : Association} {registry : Registry} {query : Query} {link : Link}
  {owner child linking : Collection} {value : Value} {id : ObjectId} {rejection : Rejection}

theorem identifier_eq_ok_iff : identifier value = .ok id ↔ Identifies id value := by
  constructor
  · intro h
    cases value with
    | objectId found =>
        cases h
        exact .self
    | text s =>
        obtain ⟨chars, hquoted, hhex⟩ := ObjectId.ofText_eq_ok_iff.mp h
        exact .text hquoted hhex
    | _ => cases h
  · rintro (_ | ⟨hquoted, hhex⟩)
    · rfl
    · exact ObjectId.ofText_eq_ok_iff.mpr ⟨_, hquoted, hhex⟩

theorem exists_identifier_eq_error_iff :
    (∃ cause, identifier value = .error cause) ↔ ∀ id, ¬Identifies id value := by
  simp only [← identifier_eq_ok_iff]
  cases identifier value <;> simp

theorem checkOwnerId_of_identifies (h : Identifies id value) : checkOwnerId value = .ok id := by
  rw [checkOwnerId, identifier_eq_ok_iff.mpr h]
  rfl

namespace Reaches

theorem exists_body (h : Reaches association registry query link owner child linking) :
    ∃ body : Except Fault Pipeline, (∀ rejection, body ≠ .error (.rejected rejection)) ∧
      ∀ value id, Identifies id value →
        (association.ownedBy value).pipeline registry query =
          body.map (association.openingFor link id owner linking child ++ ·) := by
  obtain ⟨⟨normal, hnormal⟩, hlink, howner, hchild, hlinking⟩ := h
  refine ⟨normal.checkedBody registry linking (some association.name) [link.childField]
    (normal.pageStages ++ [.regroup association.name]),
    Query.checkedBody_ne_rejected hnormal registry linking _ _ _, ?_⟩
  intro value id hid
  exact pipeline_eq hnormal hlink howner hchild hlinking (checkOwnerId_of_identifies hid)

theorem pipeline_eq_error {cause : ObjectId.Malformed}
    (h : Reaches association registry query link owner child linking)
    (hcause : identifier value = .error cause) :
    (association.ownedBy value).pipeline registry query =
      .error (.rejected ⟨ownerKey, .notIdentifier cause, value⟩) := by
  obtain ⟨⟨normal, hnormal⟩, hlink, howner, hchild, hlinking⟩ := h
  rw [pipeline, ownedBy, hnormal, hlink, howner, hchild]
  simp only [mapError_ok, bind, Except.bind, hlinking, checkOwnerId, hcause, mapError_error]

theorem pipeline_eq_rejected_iff (h : Reaches association registry query link owner child linking) :
    (association.ownedBy value).pipeline registry query = .error (.rejected rejection) ↔
      ∃ cause, identifier value = .error cause ∧
        rejection = ⟨ownerKey, .notIdentifier cause, value⟩ := by
  cases hid : identifier value with
  | ok id =>
      obtain ⟨body, hbody, hpipeline⟩ := h.exists_body
      rw [hpipeline value id (identifier_eq_ok_iff.mp hid), map_eq_error_iff]
      simp [hbody]
  | error cause =>
      rw [h.pipeline_eq_error hid]
      simp [eq_comm]

end Reaches

/-- Twenty-four hexadecimal digits in any quotes and blanks are read as the identifier that is
printed with these digits, and no other text is.  What cannot be read is all that a query is
rejected for once its owner's identifier is looked at. -/
theorem identifiers_read :
    (∀ value id, identifier value = .ok id ↔ Identifies id value) ∧
    (∀ value, (∃ cause, identifier value = .error cause) ↔ ∀ id, ¬Identifies id value) ∧
    (∀ chars, (∃ id : ObjectId, ObjectId.Hex chars id.bytes) ↔
      chars.length = 24 ∧ ∀ c ∈ chars, ObjectId.IsHexDigit c) ∧
    (∀ bytes : List UInt8, bytes.length = 12 → ∃! id : ObjectId, id.bytes = bytes) ∧
    (∀ (id : ObjectId) chars, ObjectId.Hex chars id.bytes ↔
      chars.map Char.toLower = id.toHex.toList) ∧
    ∀ (association : Association) registry query link owner child linking,
      Reaches association registry query link owner child linking →
        (∃ body : Except Fault Pipeline, ∀ value id, Identifies id value →
          (association.ownedBy value).pipeline registry query =
            body.map (association.openingFor link id owner linking child ++ ·)) ∧
        ∀ value rejection,
          (association.ownedBy value).pipeline registry query = .error (.rejected rejection) ↔
            ∃ cause, identifier value = .error cause ∧
              rejection = ⟨ownerKey, .notIdentifier cause, value⟩ := by
  refine ⟨fun _ _ => identifier_eq_ok_iff, fun _ => exists_identifier_eq_error_iff,
    fun _ => ObjectId.exists_hex_iff, fun _ => ObjectId.existsUnique_bytes,
    fun _ _ => ObjectId.hex_bytes_iff, ?_⟩
  intro association registry query link owner child linking hreaches
  obtain ⟨body, _, hbody⟩ := hreaches.exists_body
  exact ⟨⟨body, hbody⟩, fun _ _ => hreaches.pipeline_eq_rejected_iff⟩

/-- The blanks around the quotes do not count, and the quotes need not match. -/
def quotedOwner : Value := .text "\t '\"507F1f77bcf86cd799439011' "

def brokenOwner : Value := .text "\" 507f1f77bcf86cd799439011\""

theorem reaches_courses :
    Reaches courses .school Entries.empty ⟨"Enrollment", "course", none, some "student"⟩
      ⟨"Student", "Student"⟩ ⟨"Course", "courses"⟩ .enrollment where
  normal := ⟨Entries.empty, rfl⟩
  link_eq := rfl
  owner_eq := rfl
  child_eq := rfl
  linking_eq := rfl

theorem identifiers_read_quoted :
    (∃! id : ObjectId, id.bytes =
      [0x50, 0x7f, 0x1f, 0x77, 0xbc, 0xf8, 0x6c, 0xd7, 0x99, 0x43, 0x90, 0x11]) ∧
    (courses.ownedBy quotedOwner).pipeline .school Entries.empty =
      courses.pipeline .school Entries.empty ∧
    (courses.ownedBy brokenOwner).pipeline .school Entries.empty =
      .error (.rejected ⟨ownerKey,
        .notIdentifier (.notHex "\" 507f1f77bcf86cd799439011\""), brokenOwner⟩) := by
  obtain ⟨hread, _, _, hbytes, _, hassociation⟩ := identifiers_read
  obtain ⟨⟨body, hbody⟩, hrejected⟩ := hassociation _ _ _ _ _ _ _ reaches_courses
  obtain ⟨id, hgiven⟩ : ∃ id, identifier courses.ownerId = .ok id := ⟨_, rfl⟩
  have hquoted : identifier quotedOwner = .ok id := Eq.trans rfl hgiven
  have hsame := (hbody quotedOwner id ((hread _ _).mp hquoted)).trans
    (hbody courses.ownerId id ((hread _ _).mp hgiven)).symm
  refine ⟨hbytes _ rfl, hsame, (hrejected brokenOwner _).mpr ⟨_, ?_, rfl⟩⟩
  rfl

end QueryPipeline.Association
