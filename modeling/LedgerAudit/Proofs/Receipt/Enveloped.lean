import LedgerAudit.Proofs.Json.Parsed
import LedgerAudit.Proofs.Json.Unaliased
import LedgerAudit.Proofs.Message.Rewriting
import LedgerAudit.Receipt.Document

/-!
# Receipts in envelopes

A receipt document reads the same alone and in the envelope of a response, whatever else is in the
envelope, as long as its header is one. It also reads the same in either spelling of its keys.
-/

namespace LedgerAudit

open Json (Codec FieldSpec Layout Members)
open Relation (ReflTransGen)

/-- A field reads alike what its codec reads alike. -/
theorem Json.FieldSpec.ofCodec_keeps {σ α : Type} {name : String} {alternate : Option String}
    {c : Codec α} {get : σ → α} {set : α → σ → σ} {v w : Json} (h : c.Keeps v w) (s t : σ)
    (hread : (ofCodec name alternate c get set).read v s = .ok t) :
    (ofCodec name alternate c get set).read w s = .ok t := by
  rw [ofCodec, Except.map_eq_ok_iff] at hread ⊢
  exact hread.imp fun a ha => ⟨h a ha.1, ha.2⟩

namespace Envelope

variable {envelope : Members} {v : Json} {e : Envelope}

/-- The header of an envelope, if the member for it is there. -/
def readHeader (envelope : Members) : Except Json.Fault (Option ResponseHeader) :=
  match Members.find? envelope "header" with
  | none => .ok none
  | some h => ResponseHeader.format.codec.optional.read h

/-- The header of an envelope is missing, or null, or can be read. -/
def HeaderFits (envelope : Members) : Prop :=
  ∀ h, Members.find? envelope "header" = some h →
    h = .null ∨ ∃ header, ResponseHeader.format.read h = .ok header

theorem headerFits_iff : HeaderFits envelope ↔ ∃ header, readHeader envelope = .ok header := by
  rw [HeaderFits, readHeader]
  cases hfind : Members.find? envelope "header" with
  | none => simp
  | some h =>
      by_cases hnull : h = .null
      · subst hnull
        simp [Codec.optional]
      · simp [hnull, Codec.optional_read_of_ne_null hnull, Except.map_eq_ok_iff,
          Message.Format.read]

/-- Two members of an envelope matter, and each of them is read by itself. -/
theorem read_eq_ok_iff (hkeys : envelope.keys.Nodup)
    (hreceipt : Members.find? envelope "receipt" = some v) :
    codec.read (.object envelope) = .ok e ↔
      readHeader envelope = .ok e.header ∧ ReceiptDocument.codec.read v = .ok e.receipt := by
  obtain ⟨header, receipt⟩ := e
  have hsingle : ∀ f ∈ layout.fields, f.alternate = none := by simp [layout, FieldSpec.ofCodec]
  refine (layout_lawful.read_object_eq_ok_iff_found hsingle hkeys).trans ?_
  rw [readHeader]
  cases hheader : Members.find? envelope "header" with
  | none =>
      simp [layout, FieldSpec.ofCodec, Layout.found, hheader, hreceipt, Layout.assign_cons,
        Except.bind_eq_ok_iff, Except.map_eq_ok_iff, and_comm]
  | some h =>
      simp [layout, FieldSpec.ofCodec, Layout.found, hheader, hreceipt, Layout.assign_cons,
        Except.bind_eq_ok_iff, Except.map_eq_ok_iff]

end Envelope

namespace ReceiptDocument

/-- The records of a receipt document. -/
inductive Part
  | receipt
  | txReceipt
  | leafComponents

namespace Part

def Carrier : Part → Type
  | receipt => ReceiptDocument
  | txReceipt => TxReceiptDocument
  | leafComponents => LeafDocument

def layout : (p : Part) → Layout p.Carrier
  | receipt => ReceiptDocument.layout
  | txReceipt => TxReceiptDocument.layout
  | leafComponents => LeafDocument.layout

/-- The keys of a part that have a second spelling, with it. -/
def spellings : Part → List (String × String)
  | receipt => [("nodeId", "node_id"), ("txReceipt", "tx_receipt")]
  | txReceipt => [("leafComponents", "leaf_components")]
  | leafComponents => [("writeSetDigest", "write_set_digest"),
      ("commitEvidence", "commit_evidence"), ("claimsDigest", "claims_digest")]

/-- A part stands in another one under certain keys, or at a certain place of an array. -/
inductive Holds : Part → List String → Nat → Part → Prop
  | txReceipt : Holds .receipt ["txReceipt", "tx_receipt"] 3 .txReceipt
  | leafComponents : Holds .txReceipt ["leafComponents", "leaf_components"] 0 .leafComponents

theorem layout_lawful (p : Part) : p.layout.Lawful := by
  cases p with
  | receipt => exact ReceiptDocument.layout_lawful
  | txReceipt => exact TxReceiptDocument.layout_lawful
  | leafComponents => exact LeafDocument.layout_lawful

theorem exists_field_of_spellings {p : Part} {key key' : String}
    (h : (key, key') ∈ p.spellings) : ∃ f ∈ p.layout.fields, key ∈ f.keys ∧ key' ∈ f.keys := by
  have hall : ∀ s ∈ p.spellings, [s.1, s.2] ∈ p.layout.fields.map FieldSpec.keys := by
    cases p <;> decide
  obtain ⟨f, hf, hkeys⟩ := List.mem_map.mp (hall _ h)
  exact ⟨f, hf, by simp [hkeys]⟩

theorem ne_receipt_of_spellings {p : Part} {key key' : String} (h : (key, key') ∈ p.spellings) :
    key' ≠ "receipt" := by
  have hall : ∀ s ∈ p.spellings, s.2 ≠ "receipt" := by cases p <;> decide
  exact hall _ h

/-- The field for an inner part reads alike what the part reads alike. -/
theorem Holds.exists_field {p q : Part} {keys : List String} {i : Nat} (h : p.Holds keys i q)
    {v w : Json} (hv : v ≠ .null) (hw : w ≠ .null) (hkeeps : q.layout.Keeps v w) :
    ∃ f, p.layout.fields[i]? = some f ∧ f.keys = keys ∧
      ∀ s t, f.read v s = .ok t → f.read w s = .ok t := by
  cases h with
  | txReceipt =>
      exact ⟨_, rfl, rfl, FieldSpec.ofCodec_keeps (Codec.Keeps.optional hkeeps hv hw)⟩
  | leafComponents =>
      exact ⟨_, rfl, rfl, FieldSpec.ofCodec_keeps (Codec.Keeps.optional hkeeps hv hw)⟩

end Part

/-- One key in its other spelling, at any depth. The first member of an object stands for any of
them, since `reorder` brings each to the front. -/
inductive Respells : Part → Json → Json → Prop
  | rename {p : Part} {key key' : String} {v : Json} {ms : Members}
      (hkeys : (key, key') ∈ p.spellings) :
      Respells p (.object ((key, v) :: ms)) (.object ((key', v) :: ms))
  | reorder {p : Part} {ms ns : Members} (h : ms.Perm ns) : Respells p (.object ms) (.object ns)
  | member {p q : Part} {keys : List String} {i : Nat} {key : String} {v w : Json} {ms : Members}
      (hq : p.Holds keys i q) (hkey : key ∈ keys) (h : Respells q v w) :
      Respells p (.object ((key, v) :: ms)) (.object ((key, w) :: ms))
  | element {p q : Part} {keys : List String} {i : Nat} {v w : Json} {vs : List Json}
      (hq : p.Holds keys i q) (hv : vs[i]? = some v) (h : Respells q v w) :
      Respells p (.array vs) (.array (vs.set i w))

namespace Respells

variable {p : Part} {v w : Json}

theorem ne_null (h : Respells p v w) : v ≠ .null ∧ w ≠ .null := by
  cases h <;> exact ⟨nofun, nofun⟩

/-- What is read stays the same in another spelling. -/
theorem keeps (h : Respells p v w) : p.layout.Keeps v w := by
  -- on the depth of the key: the field around a part reads alike what the part reads alike
  induction h with
  | rename hkeys =>
      obtain ⟨f, hf, hkey, hkey'⟩ := Part.exists_field_of_spellings hkeys
      exact (Part.layout_lawful _).keeps_rename hf hkey hkey'
  | reorder hperm =>
      intro t
      exact (Part.layout_lawful _).read_perm hperm
  | member hq hkey h ih =>
      obtain ⟨f, hf, rfl, hread⟩ := hq.exists_field h.ne_null.1 h.ne_null.2 ih
      exact (Part.layout_lawful _).keeps_member (List.mem_of_getElem? hf) hkey hread
  | element hq hv h ih =>
      obtain ⟨f, hf, -, hread⟩ := hq.exists_field h.ne_null.1 h.ne_null.2 ih
      exact Layout.keeps_element hf hv hread

end Respells

/-- No object stands under `receipt`. -/
def Lone (v : Json) : Prop := ∀ ms, v = .object ms → ∀ inner, ("receipt", .object inner) ∉ ms

theorem Respells.lone {p : Part} {v w : Json} (h : Respells p v w) (hv : Lone v) : Lone w := by
  cases h with
  | rename hkeys =>
      rintro _ ⟨⟩ inner hmem
      rcases List.mem_cons.mp hmem with heq | hmem
      · exact Part.ne_receipt_of_spellings hkeys (Prod.mk.inj heq).1.symm
      · exact hv _ rfl inner (List.mem_cons_of_mem _ hmem)
  | reorder hperm =>
      rintro _ ⟨⟩ inner hmem
      exact hv _ rfl inner (hperm.mem_iff.mpr hmem)
  | member hq hkey _ =>
      rintro _ ⟨⟩ inner hmem
      rcases List.mem_cons.mp hmem with heq | hmem
      · obtain ⟨rfl, -⟩ := Prod.mk.inj heq
        cases hq <;> exact absurd hkey (by decide)
      · exact hv _ rfl inner (List.mem_cons_of_mem _ hmem)
  | element => nofun

theorem keeps_lone_of_reflTransGen {p : Part} {v w : Json} (h : ReflTransGen (Respells p) v w) :
    p.layout.Keeps v w ∧ (Lone v → Lone w) := by
  induction h with
  | refl => exact ⟨fun _ => id, id⟩
  | tail _ hstep ih =>
      exact ⟨fun t ht => hstep.keeps t (ih.1 t ht), fun hv => hstep.lone (ih.2 hv)⟩

/-- A text that is a document by itself. -/
structure IsBare (text : String) (document : Members) : Prop where
  json_eq : Json.parse text = .ok (.object document)
  ne_object : ∀ inner, Members.find? document "receipt" ≠ some (.object inner)

/-- A text that has a document in an envelope. -/
structure IsEnveloped (text : String) (document envelope : Members) : Prop where
  json_eq : Json.parse text = .ok (.object envelope)
  receipt_eq : Members.find? envelope "receipt" = some (.object document)

section Texts

variable {text other : String} {document document' envelope : Members} {d : ReceiptDocument}

theorem IsBare.parse_eq_ok_iff (h : IsBare text document) :
    parse text = .ok d ↔ codec.read (.object document) = .ok d := by
  rw [parse, h.json_eq]
  dsimp only
  rw [ofJson, Json.member?]
  split
  · next inner hinner => exact absurd hinner (h.ne_object inner)
  · cases codec.read (.object document) <;> simp

theorem IsBare.lone (h : IsBare text document) : Lone (.object document) := by
  rintro _ ⟨⟩ inner hmem
  have hkeys := Json.nodup_keys_of_parse h.json_eq
  exact h.ne_object inner ((Members.find?_eq_some_iff hkeys).mpr hmem)

/-- A document in another spelling is by itself too, and reads the same. -/
theorem IsBare.respelled (h : IsBare text document)
    (hother : Json.parse other = .ok (.object document'))
    (hrespelled : ReflTransGen (Respells .receipt) (.object document) (.object document')) :
    IsBare other document' := by
  refine ⟨hother, fun inner hinner => ?_⟩
  have hkeys := Json.nodup_keys_of_parse hother
  have hlone := (keeps_lone_of_reflTransGen hrespelled).2 h.lone
  exact hlone _ rfl inner ((Members.find?_eq_some_iff hkeys).mp hinner)

theorem IsEnveloped.parse_eq (h : IsEnveloped text document envelope) :
    parse text = ((Envelope.codec.read (.object envelope)).map Envelope.receipt).mapError
      ReceiptFault.envelope := by
  rw [parse, h.json_eq]
  dsimp only
  rw [ofJson, Json.member?, h.receipt_eq]
  cases Envelope.codec.read (.object envelope) <;> rfl

theorem IsEnveloped.read_eq_ok_iff (h : IsEnveloped text document envelope) {e : Envelope} :
    Envelope.codec.read (.object envelope) = .ok e ↔
      Envelope.readHeader envelope = .ok e.header ∧
        codec.read (.object document) = .ok e.receipt :=
  Envelope.read_eq_ok_iff (Json.nodup_keys_of_parse h.json_eq) h.receipt_eq

theorem IsEnveloped.parse_eq_ok_iff (h : IsEnveloped text document envelope)
    (hfits : Envelope.HeaderFits envelope) :
    parse text = .ok d ↔ codec.read (.object document) = .ok d := by
  obtain ⟨header, hheader⟩ := Envelope.headerFits_iff.mp hfits
  rw [h.parse_eq]
  constructor
  · intro hparse
    cases hread : Envelope.codec.read (.object envelope) with
    | error fault => simp [hread] at hparse
    | ok e =>
        obtain rfl : e.receipt = d := by simpa [hread] using hparse
        exact (h.read_eq_ok_iff.mp hread).2
  · intro hread
    have henvelope : Envelope.codec.read (.object envelope) = .ok ⟨header, d⟩ :=
      h.read_eq_ok_iff.mpr ⟨hheader, hread⟩
    rw [henvelope]
    rfl

theorem IsEnveloped.exists_parse_eq_error (h : IsEnveloped text document envelope)
    (hfits : ¬Envelope.HeaderFits envelope) :
    ∃ fault, parse text = .error (.envelope fault) := by
  rw [h.parse_eq]
  cases hread : Envelope.codec.read (.object envelope) with
  | error fault => exact ⟨fault, rfl⟩
  | ok e =>
      have hheader := (h.read_eq_ok_iff.mp hread).1
      exact absurd (Envelope.headerFits_iff.mpr ⟨_, hheader⟩) hfits

end Texts

/-- A document is read from its own text and from an envelope alike, and alike in either spelling of
its keys. An envelope whose header is no header is refused, whatever is in it. -/
theorem parse_enveloped_iff (bare : String) (document : Members) (hbare : IsBare bare document) :
    (∀ enveloped envelope, IsEnveloped enveloped document envelope →
      (Envelope.HeaderFits envelope →
        (∀ d, parse enveloped = .ok d ↔ parse bare = .ok d) ∧
        ∀ d, parse bare = .ok d →
          Receipt.parse enveloped = d.toReceipt ∧ Receipt.parse bare = d.toReceipt) ∧
      (¬Envelope.HeaderFits envelope → ∃ fault, parse enveloped = .error (.envelope fault) ∧
        Receipt.parse enveloped = .error (.envelope fault))) ∧
    ∀ d, parse bare = .ok d → ∀ respelled document',
      Json.parse respelled = .ok (.object document') →
      ReflTransGen (Respells .receipt) (.object document) (.object document') →
      parse respelled = .ok d ∧
        ∀ enveloped envelope, IsEnveloped enveloped document' envelope →
          Envelope.HeaderFits envelope → parse enveloped = .ok d := by
  constructor
  · intro enveloped envelope henveloped
    constructor
    · intro hfits
      have hsame d : parse enveloped = .ok d ↔ parse bare = .ok d := by
        rw [henveloped.parse_eq_ok_iff hfits, hbare.parse_eq_ok_iff]
      refine ⟨hsame, fun d hd => ?_⟩
      rw [Receipt.parse, Receipt.parse, hd, (hsame d).mpr hd]
      exact ⟨rfl, rfl⟩
    · intro hfits
      obtain ⟨fault, hfault⟩ := henveloped.exists_parse_eq_error hfits
      refine ⟨fault, hfault, ?_⟩
      rw [Receipt.parse, hfault]
      rfl
  · intro d hd respelled document' hrespelled hsteps
    have hread : codec.read (.object document') = .ok d :=
      (keeps_lone_of_reflTransGen hsteps).1 d (hbare.parse_eq_ok_iff.mp hd)
    constructor
    · exact (hbare.respelled hrespelled hsteps).parse_eq_ok_iff.mpr hread
    · intro enveloped envelope henveloped hfits
      exact (henveloped.parse_eq_ok_iff hfits).mpr hread

/-- A document with a claims digest and nothing else, under the keys given. -/
def claimsOnly (txReceipt leafComponents claimsDigest : String) : Members :=
  [(txReceipt, .object [(leafComponents, .object [(claimsDigest, .string "c")])])]

def claimsText : String :=
  "\x7b\"txReceipt\":\x7b\"leafComponents\":\x7b\"claimsDigest\":\"c\"\x7d\x7d\x7d"

def snakeText : String :=
  "\x7b\"tx_receipt\":\x7b\"leaf_components\":\x7b\"claims_digest\":\"c\"\x7d\x7d\x7d"

def claimsUnder (header : String) : String :=
  "\x7b\"receipt\":" ++ claimsText ++ ",\"x\":1,\"header\":" ++ header ++ "\x7d"

/-- Under a header the document is the same, and under a number it is refused. -/
theorem parse_enveloped_claimsText :
    let d : ReceiptDocument := ⟨none, none, none, some ⟨some ⟨none, none, some "c"⟩, none⟩⟩
    parse claimsText = .ok d ∧ parse (claimsUnder "\x7b\"raftTerm\":2\x7d") = .ok d ∧
      (∃ fault, parse (claimsUnder "7") = .error (.envelope fault)) ∧ parse snakeText = .ok d := by
  intro d
  let document := claimsOnly "txReceipt" "leafComponents" "claimsDigest"
  let envelope (header : Json) : Members :=
    [("header", header), ("receipt", .object document), ("x", .integer 1)]
  have hbare : IsBare claimsText document := ⟨rfl, nofun⟩
  have hd : parse claimsText = .ok d := rfl
  have hunder : IsEnveloped (claimsUnder "\x7b\"raftTerm\":2\x7d") document
      (envelope (.object [("raftTerm", .integer 2)])) := ⟨rfl, rfl⟩
  have hfits : Envelope.HeaderFits (envelope (.object [("raftTerm", .integer 2)])) :=
    Envelope.headerFits_iff.mpr ⟨_, rfl⟩
  have hrefused : IsEnveloped (claimsUnder "7") document (envelope (.integer 7)) := ⟨rfl, rfl⟩
  have hunfit : ¬Envelope.HeaderFits (envelope (.integer 7)) := by
    rw [Envelope.headerFits_iff]
    rintro ⟨_, ⟨⟩⟩
  -- inside out: the claims digest, the part that holds it, and the part around that
  have hclaims : Respells .leafComponents (.object [("claimsDigest", .string "c")])
      (.object [("claims_digest", .string "c")]) := .rename (by decide)
  have hinner : Respells .receipt (.object document)
      (.object (claimsOnly "txReceipt" "leafComponents" "claims_digest")) :=
    .member .txReceipt (.head _) (.member .leafComponents (.head _) hclaims)
  have hleaf : Respells .receipt
      (.object (claimsOnly "txReceipt" "leafComponents" "claims_digest"))
      (.object (claimsOnly "txReceipt" "leaf_components" "claims_digest")) :=
    .member .txReceipt (.head _) (.rename (by decide))
  have houter : Respells .receipt
      (.object (claimsOnly "txReceipt" "leaf_components" "claims_digest"))
      (.object (claimsOnly "tx_receipt" "leaf_components" "claims_digest")) :=
    .rename (by decide)
  have hsteps := ((ReflTransGen.single hinner).tail hleaf).tail houter
  obtain ⟨henveloped, hrespelled⟩ := parse_enveloped_iff claimsText document hbare
  obtain ⟨fault, hfault, -⟩ := (henveloped _ _ hrefused).2 hunfit
  exact ⟨hd, ((henveloped _ _ hunder).1 hfits).1 d |>.mpr hd, ⟨fault, hfault⟩,
    (hrespelled d hd snakeText _ rfl hsteps).1⟩

end ReceiptDocument

end LedgerAudit
