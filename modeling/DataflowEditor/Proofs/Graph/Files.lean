import DataflowEditor.Proofs.Graph.Grammar
import DataflowEditor.Proofs.Json.Opening
import DataflowEditor.Service.Compilation
import Mathlib.Tactic.ByContra

/-! # Graph files, plain and compressed

Which kind a file is of is told from its first octet other than space, while the document inside is
read by rules of its own. The two agree: a file that holds the text of an object is plain, and one
that begins as compressed files do is not. A plain file and the same file compressed once are the
same graph to a compilation. Only one layer is unpacked, so that a compressed file is of no use once
it is compressed again.
-/

namespace DataflowEditor

open Draft (isSpace skipSpace)
open Text (characters)

/-! ## The kind of a file -/

namespace Arena

/-- What is a blank to the parser is one to the test for plain files. -/
theorem isFileSpace_of_isSpace {octet : UInt8} (hascii : octet.toNat < 0x80)
    (h : isSpace (some (Char.ofNat octet.toNat)) = true) : isFileSpace octet = true := by
  have hall : ∀ n < 0x80, isSpace (some (Char.ofNat n)) = true →
      isFileSpace (UInt8.ofNat n) = true := by
    decide
  have hspace := hall octet.toNat hascii h
  rwa [UInt8.ofNat_toNat] at hspace

/-- Form feed is space to a file, but not to a document. -/
theorem eq_formFeed_of_isFileSpace {octet : UInt8} (hascii : octet.toNat < 0x80)
    (h : isFileSpace octet = true) (hspace : ¬ isSpace (some (Char.ofNat octet.toNat)) = true) :
    Char.ofNat octet.toNat = '\x0c' := by
  have hall : ∀ n < 0x80, isFileSpace (UInt8.ofNat n) = true →
      ¬ isSpace (some (Char.ofNat n)) = true → Char.ofNat n = '\x0c' := by
    decide
  refine hall octet.toNat hascii ?_ hspace
  rwa [UInt8.ofNat_toNat]

theorem eq_brace {octet : UInt8} (hascii : octet.toNat < 0x80)
    (h : Char.ofNat octet.toNat = '\x7b') : octet = 0x7b := by
  have hall : ∀ n < 0x80, Char.ofNat n = '\x7b' → UInt8.ofNat n = 0x7b := by decide
  have heq := hall octet.toNat hascii h
  rwa [UInt8.ofNat_toNat] at heq

theorem isPlainFile_cons_of_space {octet : UInt8} (h : isFileSpace octet = true)
    (rest : List UInt8) : isPlainFile (octet :: rest) = isPlainFile rest := by
  rw [isPlainFile, List.dropWhile_cons_of_pos h, isPlainFile]

/-- The first octet that is no blank decides it: it must be a brace. -/
theorem isPlainFile_cons {octet : UInt8} (h : ¬ isFileSpace octet = true) (rest : List UInt8) :
    isPlainFile (octet :: rest) = decide (octet = 0x7b) := by
  rw [isPlainFile, List.dropWhile_cons_of_neg h]

theorem skipSpace_characters {octet : UInt8} (hascii : octet.toNat < 0x80) (rest : List UInt8) :
    skipSpace (characters (octet :: rest)) =
      if isSpace (some (Char.ofNat octet.toNat)) then skipSpace (characters rest)
      else some (Char.ofNat octet.toNat) :: characters rest := by
  rw [Text.characters_cons hascii, skipSpace, List.dropWhile_cons]
  rfl

/-- An octet outside of ASCII decodes to a character that opens no document. -/
theorem foreign_head {octet : UInt8} (h : ¬ octet.toNat < 0x80) (rest : List UInt8) :
    ∃ c, (skipSpace (characters (octet :: rest))).head? = some c ∧ Text.Foreign c := by
  obtain ⟨c, more, hchars, hforeign⟩ := Text.foreign_characters (Nat.le_of_not_lt h) rest
  have hspace : ¬ isSpace c = true := by
    intro hspace
    simp only [isSpace, Bool.or_eq_true, decide_eq_true_eq] at hspace
    rcases hspace with ((rfl | rfl) | rfl) | rfl
    all_goals exact absurd (hforeign _ rfl) (by decide)
  rw [hchars, skipSpace, List.dropWhile_cons_of_neg hspace]
  exact ⟨c, rfl, hforeign⟩

/-- A file in which a brace opens the document is plain. -/
theorem isPlainFile_of_brace {octets : List UInt8}
    (h : (skipSpace (characters octets)).head? = some (some '\x7b')) :
    isPlainFile octets = true := by
  induction octets with
  | nil => cases h
  | cons octet rest ih =>
      by_cases hascii : octet.toNat < 0x80
      · rw [skipSpace_characters hascii] at h
        split_ifs at h with hspace
        · rw [isPlainFile_cons_of_space (isFileSpace_of_isSpace hascii hspace)]
          exact ih h
        · obtain rfl := eq_brace hascii (Option.some.inj (Option.some.inj h))
          rfl
      · obtain ⟨c, hhead, hforeign⟩ := foreign_head hascii rest
        obtain rfl := Option.some.inj (hhead.symm.trans h)
        exact absurd (hforeign _ rfl) (by decide)

/-- In a plain file nothing but a brace opens the document, unless form feed stands in front. -/
theorem head_of_isPlainFile {octets : List UInt8} (h : isPlainFile octets = true) :
    ∀ c ∈ (skipSpace (characters octets)).head?, c = some '\x7b' ∨ c = some '\x0c' := by
  induction octets with
  | nil => simp [characters, skipSpace]
  | cons octet rest ih =>
      by_cases hascii : octet.toNat < 0x80
      · rw [skipSpace_characters hascii]
        split_ifs with hspace
        · rw [isPlainFile_cons_of_space (isFileSpace_of_isSpace hascii hspace)] at h
          exact ih h
        · intro c hc
          obtain rfl := Option.some.inj hc
          by_cases hfile : isFileSpace octet = true
          · exact .inr (congrArg some (eq_formFeed_of_isFileSpace hascii hfile hspace))
          · rw [isPlainFile_cons hfile, decide_eq_true_iff] at h
            subst h
            exact .inl rfl
      · have hspace : ¬ isFileSpace octet = true := by
          intro hspace
          simp only [isFileSpace, Bool.or_eq_true, decide_eq_true_eq] at hspace
          rcases hspace with (((rfl | rfl) | rfl) | rfl) | rfl
          all_goals exact hascii (by decide)
        rw [isPlainFile_cons hspace, decide_eq_true_iff] at h
        subst h
        exact absurd (by decide) hascii

/-- Every file that holds an object is plain. -/
theorem isPlainFile_of_obj {octets : List UInt8} {fields : Fields}
    (h : Json.ofOctets? octets = some (.obj fields)) : isPlainFile octets = true :=
  isPlainFile_of_brace ((Json.parse?_obj_iff h).mp ⟨fields, rfl⟩)

/-- A plain file that parses holds an object. -/
theorem obj_of_isPlainFile {octets : List UInt8} (h : isPlainFile octets = true) {document : Json}
    (hdocument : Json.ofOctets? octets = some document) :
    ∃ fields, document = .obj fields := by
  have hhead := head_of_isPlainFile h
  refine (Json.parse?_obj_iff hdocument).mpr ?_
  by_contra hbrace
  have hnone : Json.parse? (characters octets) = none := by
    refine Json.parse?_eq_none fun c hc => ?_
    rcases hhead c hc with rfl | rfl
    · exact absurd hc hbrace
    · exact .inl rfl
  rw [Json.ofOctets?, hnone] at hdocument
  cases hdocument

/-- Decoding a document fails in one way only, with an invalid graph. -/
theorem ofJson_error {document : Json} {error : GraphError} (h : ofJson document = .error error) :
    ∃ fault, error = .invalidGraph fault := by
  cases document with
  | obj fields =>
      have hjudges := Subgraph.decode_judges 0 none fields
      rw [ofJson, Part.fields, ok_bind] at h
      cases hdecode : Subgraph.decode 0 none fields with
      | ok block =>
          rw [hdecode] at h
          cases h
      | error found =>
          rw [hdecode] at h hjudges
          obtain rfl := Except.error.inj h
          exact hjudges.2
  | _ =>
      obtain rfl := Except.error.inj h
      exact ⟨_, rfl⟩

/-- Reading octets fails on what is no document, and otherwise decodes the document. -/
theorem ofOctets_eq (octets : List UInt8) :
    ofOctets octets = (Json.ofOctets? octets).elim (.error .unreadable) ofJson := by
  rw [ofOctets]
  cases Json.ofOctets? octets <;> rfl

/-! ## Compressed files -/

/-- The octet with which compressed files begin. -/
def gzipMark : UInt8 := 0x1f

/-- A file that starts with the compression mark is not plain. -/
theorem not_isPlainFile_of_mark {octets : List UInt8} (h : octets.head? = some gzipMark) :
    isPlainFile octets = false := by
  obtain ⟨rest, rfl⟩ := List.head?_eq_some_iff.mp h
  exact isPlainFile_cons (by decide) rest

/-- Nor does it parse, so no packed file passes for a document. -/
theorem ofOctets?_eq_none_of_mark {octets : List UInt8} (h : octets.head? = some gzipMark) :
    Json.ofOctets? octets = none := by
  obtain ⟨rest, rfl⟩ := List.head?_eq_some_iff.mp h
  refine Json.parse?_eq_none ?_
  rw [skipSpace_characters (by decide), if_neg (by decide)]
  rintro c hc
  exact .inr (Option.some.inj hc).symm

/-- The arena of a graph file, with any means to unpack the compressed ones. -/
def ofFileWith (unpack : List UInt8 → Option (List UInt8)) (octets : List UInt8) :
    Except GraphError Arena :=
  if isPlainFile octets then ofOctets octets
  else match unpack octets with
    | some contents => ofOctets contents
    | none => .error (.file .unusable)

/-- With the decompressor of this library, reading is the reading that runs. -/
theorem ofFileWith_gunzip : ofFileWith Compression.gunzip? = ofFile :=
  rfl

/-- Nothing is unpacked but what begins as compressed files do. -/
def NeedsMark (unpack : List UInt8 → Option (List UInt8)) : Prop :=
  ∀ octets contents, unpack octets = some contents → octets.head? = some gzipMark

/-- The decompressor of this library takes nothing without the mark. -/
theorem needsMark_gunzip : NeedsMark Compression.gunzip? := by
  intro octets contents h
  rw [Compression.gunzip?] at h
  obtain ⟨deflated, hheader, _⟩ := Option.bind_eq_some_iff.mp h
  unfold Compression.skipHeader? at hheader
  split at hheader
  · rfl
  · cases hheader

section Unpack

variable {unpack : List UInt8 → Option (List UInt8)} {octets contents : List UInt8}

/-- A plain file is read as it stands, whatever the decompressor makes of it. -/
theorem ofFileWith_plain (h : isPlainFile octets = true) :
    ofFileWith unpack octets = ofOctets octets := by
  rw [ofFileWith, if_pos h]

theorem ofFileWith_packed (hplain : isPlainFile octets = false)
    (h : unpack octets = some contents) : ofFileWith unpack octets = ofOctets contents := by
  rw [ofFileWith, if_neg (by simp [hplain]), h]

theorem ofFileWith_unusable (hplain : isPlainFile octets = false) (h : unpack octets = none) :
    ofFileWith unpack octets = .error (.file .unusable) := by
  rw [ofFileWith, if_neg (by simp [hplain]), h]

/-- A file that is read is plain or begins as compressed files do. -/
theorem isPlainFile_of_ofFileWith (hmark : NeedsMark unpack) {arena : Arena}
    (h : ofFileWith unpack octets = .ok arena) (hother : octets.head? ≠ some gzipMark) :
    isPlainFile octets = true := by
  by_contra hplain
  rw [Bool.not_eq_true] at hplain
  cases hunpack : unpack octets with
  | some contents => exact hother (hmark octets contents hunpack)
  | none =>
      rw [ofFileWith_unusable hplain hunpack] at h
      cases h

end Unpack

end Arena

/-! ## Compiling -/

def loadFileWith (unpack : List UInt8 → Option (List UInt8)) (files : FileLookup) (path : String) :
    Except GraphError Arena := do
  Arena.ofFileWith unpack (← (files path).mapError .file)

/-- Compiling a graph file, with any means to unpack the compressed ones. -/
def CompilationRequest.runWith (unpack : List UInt8 → Option (List UInt8))
    (request : CompilationRequest) (options : WriteOptions) (files : FileLookup) :
    Operation CompiledLibrary := do
  let arena ← Operation.onGraph (loadFileWith unpack files request.path) fileFailedMessage
  let arena := if request.suppressInstrumentation then arena.uninstrumented else arena
  Operation.ask (.compile arena.toJson options) compileFailedMessage

/-- With the decompressor of this library, compiling is the compiling that runs. -/
theorem CompilationRequest.runWith_gunzip :
    CompilationRequest.runWith Compression.gunzip? = CompilationRequest.run :=
  rfl

/-- Files with the same arena inside are compiled alike. -/
theorem CompilationRequest.runWith_congr {unpack : List UInt8 → Option (List UInt8)}
    {request : CompilationRequest} {options : WriteOptions} {files others : FileLookup}
    {octets contents : List UInt8} (hfile : files request.path = .ok octets)
    (hother : others request.path = .ok contents)
    (h : Arena.ofFileWith unpack octets = Arena.ofFileWith unpack contents) :
    request.runWith unpack options files = request.runWith unpack options others := by
  have hload : loadFileWith unpack files request.path =
      loadFileWith unpack others request.path := by
    rw [loadFileWith, loadFileWith, hfile, hother]
    exact h
  rw [runWith, runWith, hload]

namespace Arena

/-- What is read from files and compiled, given the means to unpack them. -/
structure ReadsFiles (unpack : List UInt8 → Option (List UInt8)) : Prop where
  /-- The text of an object is the document of the arena, and is never unpacked. -/
  plain : ∀ octets fields, Json.ofOctets? octets = some (.obj fields) →
    isPlainFile octets = true ∧ ofFileWith unpack octets = ofJson (.obj fields)
  /-- A compressed file is never read as it stands; what is inside is the document. -/
  packed : ∀ octets contents, octets.head? = some gzipMark → unpack octets = some contents →
    isPlainFile octets = false ∧
      ofFileWith unpack octets = (Json.ofOctets? contents).elim (.error .unreadable) ofJson
  /-- What is neither the text of an object nor a compressed file is refused. -/
  refused : ∀ octets, (∀ fields, Json.ofOctets? octets ≠ some (.obj fields)) →
    (octets.head? = some gzipMark → unpack octets = none) →
      ofFileWith unpack octets = .error .unreadable ∨
        ofFileWith unpack octets = .error (.file .unusable)
  /-- Whatever the octets, a file is refused for its text, for its packing or for its document. -/
  faults : ∀ octets error, ofFileWith unpack octets = .error error →
    error = .unreadable ∨ error = .file .unusable ∨ ∃ fault, error = .invalidGraph fault
  /-- A file that is read although it is not compressed is the same graph once it is. -/
  same : ∀ octets contents arena, octets.head? = some gzipMark → unpack octets = some contents →
    contents.head? ≠ some gzipMark → ofFileWith unpack contents = .ok arena →
      ofFileWith unpack octets = .ok arena ∧
        ∀ (request : CompilationRequest) options files others,
          files request.path = .ok octets → others request.path = .ok contents →
            request.runWith unpack options files = request.runWith unpack options others
  /-- A file that is compressed already cannot be read once it is compressed again. -/
  twice : ∀ octets contents, octets.head? = some gzipMark → unpack octets = some contents →
    contents.head? = some gzipMark → ofFileWith unpack octets = .error .unreadable

/-- Whatever the decompressor, as long as it needs the mark, a file is read exactly as specified:
the plain ones as they stand, the others unpacked once, and no other file at all. -/
theorem NeedsMark.readsFiles {unpack : List UInt8 → Option (List UInt8)}
    (hmark : NeedsMark unpack) : ReadsFiles unpack where
  plain octets fields h := by
    have hplain := isPlainFile_of_obj h
    refine ⟨hplain, ?_⟩
    rw [ofFileWith_plain hplain, ofOctets_eq, h, Option.elim_some]
  packed octets contents hhead h := by
    have hplain := not_isPlainFile_of_mark hhead
    exact ⟨hplain, (ofFileWith_packed hplain h).trans (ofOctets_eq contents)⟩
  refused octets hobject hpacked := by
    -- A plain file fails for its text, since it would hold an object if it parsed. Any other file
    -- fails for its packing.
    cases hplain : isPlainFile octets with
    | true =>
        left
        rw [ofFileWith_plain hplain, ofOctets_eq]
        cases hdocument : Json.ofOctets? octets with
        | none => rfl
        | some document =>
            obtain ⟨fields, rfl⟩ := obj_of_isPlainFile hplain hdocument
            exact absurd hdocument (hobject fields)
    | false =>
        right
        refine ofFileWith_unusable hplain ?_
        cases hunpack : unpack octets with
        | none => rfl
        | some contents =>
            rw [hpacked (hmark octets contents hunpack)] at hunpack
            cases hunpack
  faults octets error h := by
    have hfaults : ∀ octets, ofOctets octets = .error error →
        error = .unreadable ∨ ∃ fault, error = .invalidGraph fault := by
      intro octets h
      rw [ofOctets] at h
      split at h
      · exact .inr (ofJson_error h)
      · exact .inl (Except.error.inj h).symm
    rw [ofFileWith] at h
    split_ifs at h
    · exact (hfaults octets h).imp_right .inr
    · split at h
      · exact (hfaults _ h).imp_right .inr
      · exact .inr (.inl (Except.error.inj h).symm)
  same octets contents arena hhead h hother hcontents := by
    -- What was read without the mark is plain, so that unpacking the other file leads to the same
    -- text.
    have hplain := isPlainFile_of_ofFileWith hmark hcontents hother
    have heq : ofFileWith unpack octets = ofFileWith unpack contents := by
      rw [ofFileWith_packed (not_isPlainFile_of_mark hhead) h, ofFileWith_plain hplain]
    exact ⟨heq.trans hcontents, fun _ _ _ _ hfile hfound =>
      CompilationRequest.runWith_congr hfile hfound heq⟩
  twice octets contents hhead h htwice := by
    rw [ofFileWith_packed (not_isPlainFile_of_mark hhead) h, ofOctets_eq,
      ofOctets?_eq_none_of_mark htwice, Option.elim_none]

/-- The text of an empty object. -/
def emptyObject : List UInt8 :=
  [0x7b, 0x7d]

/-- An empty object, compressed. -/
def packedOnce : List UInt8 :=
  [0x1f, 0x8b, 8, 0, 0, 0, 0, 0, 0, 0xff, 1, 2, 0, 0xfd, 0xff, 0x7b, 0x7d,
    0x43, 0xbf, 0xa6, 0xa3, 2, 0, 0, 0]

/-- The same compressed once more. -/
def packedTwice : List UInt8 :=
  [0x1f, 0x8b, 8, 0, 0, 0, 0, 0, 0, 0xff, 1, 25, 0, 0xe6, 0xff] ++ packedOnce ++
    [0x72, 0x40, 0xcc, 0x2d, 25, 0, 0, 0]

theorem gunzip_readsFiles :
    NeedsMark Compression.gunzip? ∧ ReadsFiles Compression.gunzip? ∧
      packedOnce.head? = some gzipMark ∧ Compression.gunzip? packedOnce = some emptyObject ∧
      ofFile emptyObject = .ok ⟨[⟨[], [], none, []⟩]⟩ ∧
      ofFile packedOnce = .ok ⟨[⟨[], [], none, []⟩]⟩ := by
  have hreads := NeedsMark.readsFiles needsMark_gunzip
  have hhead : packedOnce.head? = some gzipMark := rfl
  have hunpack : Compression.gunzip? packedOnce = some emptyObject := by decide +kernel
  have hplain : ofFile emptyObject = .ok ⟨[⟨[], [], none, []⟩]⟩ := by decide +kernel
  have hsame := hreads.same packedOnce emptyObject ⟨[⟨[], [], none, []⟩]⟩ hhead hunpack (by decide)
  rw [ofFileWith_gunzip] at hsame
  exact ⟨needsMark_gunzip, hreads, hhead, hunpack, hplain, (hsame hplain).1⟩

/-- Compressing a file that is read may make it one that is not: it may be compressed already. -/
theorem packedTwice_unreadable :
    packedTwice.head? = some gzipMark ∧ Compression.gunzip? packedTwice = some packedOnce ∧
      ofFile packedOnce = .ok ⟨[⟨[], [], none, []⟩]⟩ ∧
      ofFile packedTwice = .error .unreadable := by
  decide +kernel

end Arena

end DataflowEditor
