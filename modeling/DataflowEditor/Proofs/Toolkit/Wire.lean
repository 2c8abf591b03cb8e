import DataflowEditor.Proofs.Toolkit.Spelling
import Mathlib

/-! # What travels between daemon and toolkit

Every message and every part of one is decoded from documents that leave out members, bring members
that mean nothing here, or come as arrays, and each is written in one way only. What is decoded is
written so that it is decoded again. For a record this takes that every member that is not taken as
it is can be decoded from what is written for it, which holds of all records that come out of the
decoder: such records are called settled.
-/

namespace DataflowEditor

attribute [local simp] Draft.ofMembers RecordShape.decodeMembers RecordShape.missing?
  RecordField.needed RecordField.defaulted Fields.append? Except.map

/-! ## Messages -/

/-- A document that may be left out is there only if it is not null. -/
theorem reproduces_optionalJson :
    Reproduces (Draft.optional Draft.json) fun document => document.getD .null := by
  have hnull : ∀ ⦃draft document⦄, Draft.json draft = .ok document → id document = .null →
      draft = .null := by
    rintro draft document h rfl
    unfold Draft.json at h
    split at h
    next hfound =>
      obtain rfl := Except.ok.inj h
      cases draft <;> simp [Draft.json?] at hfound ⊢
    next => cases h
  simpa using Reproduces.json.optional hnull

namespace Request

/-- The number and the parameters can be decoded again. -/
structure Settled (request : Request) : Prop where
  id : MessageId.decode (.ofJson request.id.toJson) = .ok request.id
  params : Draft.optional Draft.json (.ofJson (request.params.getD .null)) = .ok request.params

/-- What was decoded as a request can be decoded again, part by part. -/
theorem settled {draft : Draft} {request : Request} (h : shape.decode draft = .ok request) :
    request.Settled := by
  refine RecordShape.decode_keeps ⟨rfl, rfl⟩ ?_ h
  simp only [shape, List.forall_mem_cons]
  exact ⟨RecordField.keeps_stored fun _ _ _ _ h => ⟨h.id, h.params⟩,
    RecordField.keeps_stored fun _ _ _ hid h => ⟨MessageId.reproduces hid, h.params⟩,
    RecordField.keeps_stored fun _ _ _ _ h => ⟨h.id, h.params⟩,
    RecordField.keeps_stored fun _ _ _ hparams h => ⟨h.id, reproduces_optionalJson hparams⟩,
    by simp⟩

/-- A request that was decoded is decoded again from what is written for it. -/
theorem reproduces : Reproduces shape.decode toJson := by
  intro draft request h
  obtain ⟨hid, hparams⟩ := settled h
  obtain ⟨version, id, method, params⟩ := request
  cases params with
  | none => simp [toJson, shape, hid]
  | some params =>
      simp only [Option.getD_some] at hparams
      simp [toJson, shape, hid, hparams]

end Request

namespace Notification

theorem settled {draft : Draft} {note : Notification} (h : shape.decode draft = .ok note) :
    Draft.optional Draft.json (.ofJson (note.params.getD .null)) = .ok note.params := by
  refine RecordShape.decode_keeps (P := fun note : Notification =>
    Draft.optional Draft.json (.ofJson (note.params.getD .null)) = .ok note.params) rfl ?_ h
  simp only [shape, List.forall_mem_cons]
  exact ⟨RecordField.keeps_stored fun _ _ _ _ h => h,
    RecordField.keeps_stored fun _ _ _ _ h => h,
    RecordField.keeps_stored fun _ _ _ hparams _ => reproduces_optionalJson hparams, by simp⟩

theorem reproduces : Reproduces shape.decode toJson := by
  intro draft note h
  have hparams := settled h
  obtain ⟨version, method, params⟩ := note
  cases params with
  | none => simp [toJson, shape]
  | some params =>
      simp only [Option.getD_some] at hparams
      simp [toJson, shape, hparams]

end Notification

namespace RemoteError

structure Settled (error : RemoteError) : Prop where
  code : Draft.integer (-2147483648) 2147483647 "i32" (.ofJson (.int error.code)) = .ok error.code
  data : Draft.optional Draft.json (.ofJson (error.data.getD .null)) = .ok error.data

/-- The code that was decoded fits 32 bits, and the data are kept. -/
theorem settled {draft : Draft} {error : RemoteError} (h : shape.decode draft = .ok error) :
    error.Settled := by
  refine RecordShape.decode_keeps ⟨rfl, rfl⟩ ?_ h
  simp only [shape, List.forall_mem_cons]
  exact ⟨RecordField.keeps_stored fun _ _ _ hcode h => ⟨Reproduces.integer _ _ _ hcode, h.data⟩,
    RecordField.keeps_stored fun _ _ _ _ h => ⟨h.code, h.data⟩,
    RecordField.keeps_stored fun _ _ _ hdata h => ⟨h.code, reproduces_optionalJson hdata⟩,
    by simp⟩

theorem reproduces : Reproduces shape.decode toJson := by
  intro draft error h
  obtain ⟨hcode, hdata⟩ := settled h
  obtain ⟨code, message, data⟩ := error
  cases data with
  | none => simp [toJson, shape, hcode]
  | some data =>
      simp only [Option.getD_some] at hdata
      simp [toJson, shape, hcode, hdata]

end RemoteError

namespace Response

structure Settled (response : Response) : Prop where
  id : MessageId.decode (.ofJson response.id.toJson) = .ok response.id
  result : Draft.optional Draft.json (.ofJson (response.result.getD .null)) = .ok response.result
  error : Draft.optional RemoteError.shape.decode
    (.ofJson ((response.error.map RemoteError.toJson).getD .null)) = .ok response.error

/-- What was decoded as a response can be decoded again, part by part. -/
theorem settled {draft : Draft} {response : Response} (h : shape.decode draft = .ok response) :
    response.Settled := by
  refine RecordShape.decode_keeps ⟨rfl, rfl, rfl⟩ ?_ h
  have herror := RemoteError.reproduces.optional fun _ error _ h => by
    simp [RemoteError.toJson] at h
  simp only [shape, List.forall_mem_cons]
  exact ⟨RecordField.keeps_stored fun _ _ _ _ h => ⟨h.id, h.result, h.error⟩,
    RecordField.keeps_stored fun _ _ _ hid h => ⟨MessageId.reproduces hid, h.result, h.error⟩,
    RecordField.keeps_stored fun _ _ _ hresult h =>
      ⟨h.id, reproduces_optionalJson hresult, h.error⟩,
    RecordField.keeps_stored fun _ _ _ hfound h => ⟨h.id, h.result, herror hfound⟩, by simp⟩

/-- A result and an error are written only if there is one, and both are found again. -/
theorem reproduces : Reproduces shape.decode toJson := by
  intro draft response h
  obtain ⟨hid, hresult, herror⟩ := settled h
  obtain ⟨version, id, result, error⟩ := response
  cases result <;> cases error <;>
    simp only [Option.getD_some, Option.map_some, Option.map_none] at hresult herror <;>
    simp [toJson, shape, hid, hresult, herror]

end Response

/-! ## Settings and findings -/

theorem WriteOptions.reproduces : Reproduces shape.decode toJson :=
  fun _ _ _ => by simp [toJson, shape]

theorem ToolkitProfile.reproduces : Reproduces shape.decode toJson := by
  rintro _ ⟨name, version, capabilities⟩ _
  have hcapabilities : Draft.list Draft.string (.ofJson (.arr (capabilities.map .str))) =
      .ok capabilities :=
    Draft.listItems_ofItems (fun _ _ => rfl) 0 []
  simp [toJson, shape, hcapabilities]

theorem CompiledLibrary.reproduces : Reproduces shape.decode toJson :=
  fun _ _ _ => by simp [toJson, shape]

namespace Findings

structure Settled (found : Findings) : Prop where
  transformations : Draft.list Draft.json (.ofJson (.arr found.transformations)) =
    .ok found.transformations
  docstrings : Draft.mapping Draft.json (.ofJson (.obj found.docstrings)) = .ok found.docstrings

/-- Both parts of findings that were decoded can be decoded again. -/
theorem settled {draft : Draft} {found : Findings} (h : shape.decode draft = .ok found) :
    found.Settled := by
  refine RecordShape.decode_keeps ⟨rfl, rfl⟩ ?_ h
  simp only [shape, List.forall_mem_cons]
  exact ⟨RecordField.keeps_stored fun _ _ _ hlist h =>
      ⟨by simpa using Reproduces.json.list hlist, h.docstrings⟩,
    RecordField.keeps_stored fun _ _ _ htexts h =>
      ⟨h.transformations, by simpa using Reproduces.json.mapping htexts⟩, by simp⟩

theorem reproduces : Reproduces shape.decode fun found => .obj found.toFields := by
  intro draft found h
  obtain ⟨htransformations, hdocstrings⟩ := settled h
  obtain ⟨transformations, docstrings⟩ := found
  simp [toFields, shape, htransformations, hdocstrings]

end Findings

/-! ## Queries -/

namespace CacheModel

structure Settled (cache : CacheModel) : Prop where
  size : Draft.natural "u64" (.ofJson (.nat cache.size)) = .ok cache.size
  lineSize : Draft.natural "u64" (.ofJson (.nat cache.lineSize)) = .ok cache.lineSize

theorem settled {draft : Draft} {cache : CacheModel} (h : shape.decode draft = .ok cache) :
    cache.Settled := by
  refine RecordShape.decode_keeps ⟨rfl, rfl⟩ ?_ h
  simp only [shape, List.forall_mem_cons]
  exact ⟨RecordField.keeps_stored fun _ _ _ hsize h => ⟨Reproduces.natural _ hsize, h.lineSize⟩,
    RecordField.keeps_stored fun _ _ _ hsize h => ⟨h.size, Reproduces.natural _ hsize⟩, by simp⟩

theorem reproduces : Reproduces shape.decode toJson := by
  intro draft cache h
  obtain ⟨hsize, hlineSize⟩ := settled h
  simp [toJson, shape, hsize, hlineSize]

end CacheModel

namespace AnalysisQuery

structure Settled (query : AnalysisQuery) : Prop where
  graph : Draft.json (.ofJson query.graph) = .ok query.graph
  symbolValues : decodeValues
    (.ofJson (.obj (query.symbolValues.map fun entry => (entry.1, .int entry.2)))) =
      .ok query.symbolValues
  cache : Draft.optional CacheModel.shape.decode
    (.ofJson ((query.cache.map CacheModel.toJson).getD .null)) = .ok query.cache

/-- What was decoded as a query can be decoded again, part by part. -/
theorem settled {draft : Draft} {query : AnalysisQuery} (h : shape.decode draft = .ok query) :
    query.Settled := by
  have hnone : decodeValues (.ofJson (.obj [])) = .ok [] := by
    simp [decodeValues, Draft.mapping, Draft.ofJson, Draft.mapMembers, sortEntries]
  refine RecordShape.decode_keeps ⟨rfl, hnone, rfl⟩ ?_ h
  have hcache := CacheModel.reproduces.optional fun _ cache _ h => by simp [CacheModel.toJson] at h
  simp only [shape, List.forall_mem_cons]
  exact ⟨RecordField.keeps_stored fun _ _ _ _ h => ⟨h.graph, h.symbolValues, h.cache⟩,
    RecordField.keeps_stored fun _ _ _ hgraph h =>
      ⟨Reproduces.json hgraph, h.symbolValues, h.cache⟩,
    RecordField.keeps_stored fun _ _ _ _ h => ⟨h.graph, h.symbolValues, h.cache⟩,
    RecordField.keeps_stored fun _ _ _ hvalues h =>
      ⟨h.graph, reproduces_values hvalues, h.cache⟩,
    RecordField.keeps_stored fun _ _ _ hfound h => ⟨h.graph, h.symbolValues, hcache hfound⟩,
    by simp⟩

/-- A query leaves out what has nothing to say, and it is decoded as saying nothing. -/
theorem reproduces : Reproduces shape.decode toJson := by
  intro draft query h
  obtain ⟨hgraph, hvalues, hcache⟩ := settled h
  have hassumptions : ∀ assumptions : List String,
      Draft.list Draft.string (.ofJson (.arr (assumptions.map .str))) = .ok assumptions :=
    fun assumptions => Draft.listItems_ofItems (fun _ _ => rfl) 0 []
  obtain ⟨analysis, graph, assumptions, values, cache⟩ := query
  have hanalysis : Analysis.decode (.ofJson analysis.toJson) = .ok analysis :=
    Analysis.decodeAs_of_spells (.name analysis)
  -- Each of the last three members is left out where it has nothing to say.
  rcases eq_or_ne assumptions [] with rfl | hassumed <;>
    rcases eq_or_ne values [] with rfl | hvalued <;> cases cache <;>
    simp only [Option.getD_some, Option.map_some] at hcache <;>
    simp [toJson, toFields, shape, *]

end AnalysisQuery

/-! ## All types -/

/-- The types of what is exchanged with the toolkit, but for graphs, which are documents of their
own. -/
inductive WireType where
  | messageId
  | request
  | notification
  | response
  | remoteError
  | writeOptions
  | profile
  | findings
  | selection
  | location
  | analysis
  | cacheModel
  | analysisQuery
  | compiledLibrary

namespace WireType

def Value : WireType → Type
  | messageId => MessageId
  | request => Request
  | notification => Notification
  | response => Response
  | remoteError => RemoteError
  | writeOptions => WriteOptions
  | profile => ToolkitProfile
  | findings => Findings
  | selection => SelectedSubgraph
  | location => Location
  | analysis => Analysis
  | cacheModel => CacheModel
  | analysisQuery => AnalysisQuery
  | compiledLibrary => CompiledLibrary

def decode : (type : WireType) → Decoder type.Value
  | messageId => MessageId.decode
  | request => Request.shape.decode
  | notification => Notification.shape.decode
  | response => Response.shape.decode
  | remoteError => RemoteError.shape.decode
  | writeOptions => WriteOptions.shape.decode
  | profile => ToolkitProfile.shape.decode
  | findings => Findings.shape.decode
  | selection => SelectedSubgraph.decode
  | location => Location.decode
  | analysis => Analysis.decode
  | cacheModel => CacheModel.shape.decode
  | analysisQuery => AnalysisQuery.shape.decode
  | compiledLibrary => CompiledLibrary.shape.decode

def encode : (type : WireType) → type.Value → Json
  | messageId => MessageId.toJson
  | request => Request.toJson
  | notification => Notification.toJson
  | response => Response.toJson
  | remoteError => RemoteError.toJson
  | writeOptions => WriteOptions.toJson
  | profile => ToolkitProfile.toJson
  | findings => fun found => .obj found.toFields
  | selection => SelectedSubgraph.toJson
  | location => Location.toJson
  | analysis => Analysis.toJson
  | cacheModel => CacheModel.toJson
  | analysisQuery => AnalysisQuery.toJson
  | compiledLibrary => CompiledLibrary.toJson

/-- The document of a type that says what a document says. -/
def rewrite (type : WireType) (document : Json) : Except DecodeFault Json :=
  (document.decodeAs type.decode).map type.encode

/-- Whatever the type, a value that was decoded is decoded again from what is written for it. -/
theorem reproduces (type : WireType) : Reproduces type.decode type.encode := by
  cases type with
  | messageId => exact MessageId.reproduces
  | request => exact Request.reproduces
  | notification => exact Notification.reproduces
  | response => exact Response.reproduces
  | remoteError => exact RemoteError.reproduces
  | writeOptions => exact WriteOptions.reproduces
  | profile => exact ToolkitProfile.reproduces
  | findings => exact Findings.reproduces
  | selection => exact SelectedSubgraph.reproduces
  | location => exact Location.reproduces
  | analysis => exact Analysis.reproduces
  | cacheModel => exact CacheModel.reproduces
  | analysisQuery => exact AnalysisQuery.reproduces
  | compiledLibrary => exact CompiledLibrary.reproduces

/-- What the documents of those types spell that are not records. -/
inductive Spells : (type : WireType) → Json → type.Value → Prop
  | messageId {document : Json} {id : MessageId} : MessageId.Spells document id →
      Spells messageId document id
  | selection {document : Json} {selected : SelectedSubgraph} :
      SelectedSubgraph.Spells document selected → Spells selection document selected
  | location {document : Json} {place : Location} : Location.Spells document place →
      Spells location document place
  | analysis {document : Json} {kind : Analysis} : Analysis.Spells document kind →
      Spells analysis document kind

/-- A document that spells a value is decoded to that value. -/
theorem Spells.decodeAs {type : WireType} {document : Json} {value : type.Value}
    (h : type.Spells document value) : document.decodeAs type.decode = .ok value := by
  cases h with
  | messageId hid => exact MessageId.decodeAs_of_spells hid
  | selection hselected => exact SelectedSubgraph.decodeAs_of_spells hselected
  | location hplace => exact Location.decodeAs_of_spells hplace
  | analysis hkind => exact Analysis.decodeAs_of_spells hkind

/-- What is decoded is decoded again, whole and unchanged, from the document written for it, which
is written anew as it stands. If the document spells a value, this is the one that is decoded. -/
theorem decodeAs_encode (type : WireType) {document : Json} {value : type.Value}
    (h : document.decodeAs type.decode = .ok value) :
    (type.encode value).decodeAs type.decode = .ok value ∧
      type.rewrite document = .ok (type.encode value) ∧
      type.rewrite (type.encode value) = .ok (type.encode value) ∧
      ∀ meant, type.Spells document meant → value = meant := by
  have hagain : (type.encode value).decodeAs type.decode = .ok value := type.reproduces h
  refine ⟨hagain, map_eq_ok.mpr ⟨value, h, rfl⟩, map_eq_ok.mpr ⟨value, hagain, rfl⟩, ?_⟩
  intro meant hmeant
  exact Except.ok.inj (h.symm.trans hmeant.decodeAs)

/-- A query as an array, its analysis as an object, with symbols out of order and no cache. -/
def looseQuery : Json :=
  .arr [.obj [("work", .null)], .obj [("nodes", .null)], .arr [.str "N>0"],
    .obj [("N", .nat 8), ("K", .int (-1))], .null]

def strictQuery : AnalysisQuery :=
  ⟨.work, .obj [("nodes", .null)], ["N>0"], [("K", -1), ("N", 8)], none⟩

/-- The query is read with its symbols in order, and read again from its strict form. -/
theorem looseQuery_decodeAs_encode :
    looseQuery.decodeAs (decode .analysisQuery) = .ok strictQuery ∧
    (encode .analysisQuery strictQuery).decodeAs (decode .analysisQuery) = .ok strictQuery := by
  have hloose : looseQuery.decodeAs (decode .analysisQuery) = .ok strictQuery := by
    cbv
  exact ⟨hloose, (decodeAs_encode .analysisQuery hloose).1⟩

end WireType

end DataflowEditor
