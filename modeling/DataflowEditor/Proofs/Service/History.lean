import DataflowEditor.Proofs.Service.Payload
import DataflowEditor.Proofs.Service.Transformation
import DataflowEditor.Service.History

/-! # Playing back a history

A history is played back as a batch: on the graph that it began with, by the same calls, whatever
the toolkit answers. The editor that applies the entries by requests of their own has every graph
decoded and written again before it is sent on, while a batch passes it on as it came back. The two
agree as long as the toolkit makes no difference between these forms.
-/

namespace DataflowEditor

/-! ## One batch -/

/-- The recursion from the last entry is the batch from the first one. -/
theorem replayed_eq (options : WriteOptions) (ancestor : Arena) (first : Json) (rest : List Json)
    {count : Nat} (hcount : count ≤ rest.length) :
    replayed options ancestor (first :: rest) (count + 1) =
      applyInTurn options replayMessage ancestor ancestor.toJson 1
        (first :: rest.take count) := by
  induction count with
  | zero => rfl
  | succ count ih =>
      have hentry : (first :: rest).getD (count + 1) .null = rest[count] := by
        simp [List.getD_eq_getElem?_getD, List.getElem?_eq_getElem hcount]
      have hlength : (rest.take count).length = count := by
        rw [List.length_take]
        omega
      rw [replayed, ih (Nat.le_of_succ_le hcount), List.take_succ_eq_append_getElem hcount,
        applyInTurn_concat, hlength, hentry, Nat.add_comm 1 count]
      rfl

/-- What is read as the graph that a history began with is accepted as a payload, unless it is the
envelope of an error. -/
theorem readPayloadOrText_eq_decodeAncestor {original : Json}
    (hplain : ∀ document, payloadDocument? original = some document →
      document.member? "error" = none) :
    readPayloadOrText original =
      (decodeAncestor original).mapError (.ofGraphError parseFailedMessage) := by
  cases original with
  | str text =>
      rw [readPayloadOrText, decodeAncestor]
      cases hdocument : Json.ofText? text with
      | none => rfl
      | some document =>
          dsimp only
          rw [readPayload, hplain document hdocument]
  | _ => rw [readPayloadOrText, readPayload, hplain _ rfl, decodeAncestor] <;> simp

namespace ReplayRequest

variable {request : ReplayRequest} {arena : Arena} {original : Json} {options : WriteOptions}

/-- A replay applies the recorded transformations in turn, from the ancestor on. -/
theorem run_eq (hgraph : readPayloadOrText request.graph = .ok arena)
    (horiginal : arena.root.ancestor? = some original)
    (hindex : request.index < arena.root.history.length) :
    request.run options = (Operation.onGraph (decodeAncestor original) replayFailedMessage >>=
      fun ancestor => applyInTurn options replayMessage ancestor ancestor.toJson 1
        (arena.root.history.take (request.index + 1))) := by
  have hbatch : ∀ ancestor,
      replayed options ancestor arena.root.history (request.index + 1) =
        applyInTurn options replayMessage ancestor ancestor.toJson 1
          (arena.root.history.take (request.index + 1)) := by
    intro ancestor
    cases hhistory : arena.root.history with
    | nil => simp [hhistory] at hindex
    | cons first rest =>
        rw [hhistory, List.length_cons] at hindex
        exact replayed_eq options ancestor first rest (Nat.le_of_lt_succ hindex)
  have hread : Operation.ofAttempt (readPayloadOrText request.graph) = pure arena := by
    rw [hgraph]
    rfl
  rw [run, hread, pure_bind, horiginal]
  dsimp only
  rw [if_neg (Nat.not_le.mpr hindex)]
  exact bind_congr hbatch

/-- What is decoded as the beginning of a history is decoded again from what it is sent as. -/
theorem ofJson_ancestor {ancestor : Arena} (h : decodeAncestor original = .ok ancestor) :
    Arena.ofJson ancestor.toJson = .ok ancestor.reread := by
  obtain ⟨document, hdocument⟩ : ∃ document, Arena.ofJson document = .ok ancestor := by
    unfold decodeAncestor at h
    split at h
    · split at h
      next document _ => exact ⟨document, h⟩
      next => cases h
    · exact ⟨original, h⟩
  exact (Arena.ofJson_wellFormed hdocument).ofJson_toJson_of_endsFit
    (Arena.ofJson_typed hdocument) (Arena.ofJson_endsFit hdocument)

/-- A playback is the batch but for its messages. -/
theorem run_unworded (hgraph : readPayloadOrText request.graph = .ok arena)
    (horiginal : arena.root.ancestor? = some original)
    (hplain : ∀ document, payloadDocument? original = some document →
      document.member? "error" = none)
    (hindex : request.index < arena.root.history.length) (permissive : Bool) :
    (request.run options).unworded =
      (BatchRequest.run ⟨original, arena.root.history.take (request.index + 1), permissive⟩
        options).unworded := by
  have hread : Operation.ofAttempt (readPayloadOrText original) =
      Operation.onGraph (decodeAncestor original) parseFailedMessage := by
    rw [readPayloadOrText_eq_decodeAncestor hplain]
    rfl
  rw [run_eq hgraph horiginal hindex, BatchRequest.run, hread, Operation.unworded_bind,
    Operation.unworded_bind, Operation.unworded_onGraph _ replayFailedMessage parseFailedMessage]
  refine bind_congr fun ancestor => ?_
  rw [applyFrom_eq]
  exact applyInTurn_unworded options replayMessage batchMessage ancestor ancestor.toJson 1 1 _

/-- It makes the calls of a batch, each on the graph that came back before. -/
theorem run_conducted (hgraph : readPayloadOrText request.graph = .ok arena)
    (horiginal : arena.root.ancestor? = some original)
    (hindex : request.index < arena.root.history.length) {σ : Type}
    (answerer : Dialogue.Answerer σ) (state : σ) : ∃ applications outcome last,
    (request.run options).Runs answerer state (applications.map (Application.answered options))
      outcome last ∧
    Conducted ((decodeAncestor original).map Arena.toJson)
      (arena.root.history.take (request.index + 1)) applications outcome := by
  obtain ⟨first, rest, htaken⟩ : ∃ first rest,
      arena.root.history.take (request.index + 1) = first :: rest := by
    cases hhistory : arena.root.history with
    | nil => simp [hhistory] at hindex
    | cons first rest => exact ⟨first, rest.take request.index, rfl⟩
  rw [run_eq hgraph horiginal hindex, htaken]
  cases hancestor : decodeAncestor original with
  | error error =>
      exact ⟨[], _, _, (Operation.runs_onGraph_error answerer state _ rfl).bind_error, .refused⟩
  | ok ancestor =>
      obtain ⟨applications, outcome, last, hruns, hconducted⟩ :=
        applyInTurn_conducted answerer options replayMessage (ofJson_ancestor hancestor)
          Arena.reread_length 1 first rest state
      exact ⟨applications, outcome, last,
        (Operation.runs_onGraph_ok answerer state _ rfl).bind_ok hruns, hconducted⟩

/-- Against every toolkit, playing back the entries up to one that is there makes the same calls as
a batch of these entries on the graph that the history began with. Both give the same graph or fail
with the same details, and the calls are made in the order of the entries, each with the graph that
came back from the one before. -/
theorem run_matches_batch (hgraph : readPayloadOrText request.graph = .ok arena)
    (horiginal : arena.root.ancestor? = some original)
    (hplain : ∀ document, payloadDocument? original = some document →
      document.member? "error" = none)
    (hindex : request.index < arena.root.history.length) (permissive : Bool) {σ : Type}
    (answerer : Dialogue.Answerer σ) (state : σ) :
    let replay := (request.run options).run
    let batch := (BatchRequest.run
      ⟨original, arena.root.history.take (request.index + 1), permissive⟩ options).run
    replay.calls answerer state = batch.calls answerer state ∧
      (replay.run answerer state).1.mapError Failure.details =
        (batch.run answerer state).1.mapError Failure.details ∧
      ∃ applications,
        replay.trace answerer state = applications.map (Application.answered options) ∧
        batch.trace answerer state = applications.map (Application.answered options) ∧
        Conducted ((decodeAncestor original).map Arena.toJson)
          (arena.root.history.take (request.index + 1)) applications
          (replay.run answerer state).1 := by
  intro replay batch
  obtain ⟨applications, outcome, last, hreplay, hconducted⟩ :=
    run_conducted hgraph horiginal hindex answerer state
  obtain ⟨again, hbatch, hdetails⟩ :=
    hreplay.of_unworded (run_unworded hgraph horiginal hplain hindex permissive)
  have hends : (replay.run answerer state).1 = outcome := congrArg Prod.fst hreplay.ends
  have hends' : (batch.run answerer state).1 = again := congrArg Prod.fst hbatch.ends
  refine ⟨?_, ?_, applications, hreplay.trace, hbatch.trace, ?_⟩
  · rw [← Dialogue.trace_calls, ← Dialogue.trace_calls]
    exact congrArg (List.map Sigma.fst) (hreplay.trace.trans hbatch.trace.symm)
  · rw [hends, hends', hdetails]
  · rw [hends]
    exact hconducted

/-! ### A recorded history -/

def pristineDocument : Json :=
  .obj [("attributes", .obj [])]

def recordedFields : Fields :=
  [("attributes", .obj [("orig_sdfg", pristineDocument),
    ("transformation_hist", .arr (["A", "B", "C"].map fun name =>
      .obj [("transformation", .str name)]))])]

/-- Play back the first two of three entries. -/
def recordedRequest : ReplayRequest :=
  ⟨.obj recordedFields, 1⟩

def recordedArena : Arena :=
  ⟨[⟨[], [], none, recordedFields⟩]⟩

theorem read_recordedRequest : readPayloadOrText recordedRequest.graph = .ok recordedArena := by
  decide

/-- A toolkit that gives graphs back as they are, and stops answering after so many calls. -/
def tiringToolkit : Dialogue.Answerer Nat
  | .apply graph _ _, left + 1 => (.ok graph, left)
  | _, left => (.error .timeout, left)

theorem recordedRequest_matches :
    readPayloadOrText recordedRequest.graph = .ok recordedArena ∧
    recordedArena.root.ancestor? = some pristineDocument ∧
    (∀ document, payloadDocument? pristineDocument = some document →
      document.member? "error" = none) ∧
    recordedRequest.index < recordedArena.root.history.length ∧
    let replay := (recordedRequest.run ⟨true⟩).run
    let batch := (BatchRequest.run ⟨pristineDocument,
      recordedArena.root.history.take (recordedRequest.index + 1), false⟩ ⟨true⟩).run
    replay.calls tiringToolkit 1 = batch.calls tiringToolkit 1 ∧
      (replay.run tiringToolkit 1).1.mapError Failure.details =
        (batch.run tiringToolkit 1).1.mapError Failure.details ∧
      ∃ applications,
        replay.trace tiringToolkit 1 = applications.map (Application.answered ⟨true⟩) ∧
        batch.trace tiringToolkit 1 = applications.map (Application.answered ⟨true⟩) ∧
        Conducted ((decodeAncestor pristineDocument).map Arena.toJson)
          (recordedArena.root.history.take (recordedRequest.index + 1)) applications
          (replay.run tiringToolkit 1).1 := by
  have horiginal : recordedArena.root.ancestor? = some pristineDocument := by decide
  have hplain : ∀ document, payloadDocument? pristineDocument = some document →
      document.member? "error" = none := by
    rintro _ ⟨⟩
    rfl
  have hindex : recordedRequest.index < recordedArena.root.history.length := by decide
  exact ⟨read_recordedRequest, horiginal, hplain, hindex,
    run_matches_batch read_recordedRequest horiginal hplain hindex false tiringToolkit 1⟩

end ReplayRequest

/-! ## Requests of their own -/

/-- Apply transformations by one request each, with the graph of the answer before. -/
def applySeparately (options : WriteOptions) (graph : Json) : List Json → Operation Json
  | [] => return graph
  | transformation :: rest => do
    applySeparately options (← ApplicationRequest.run ⟨graph, transformation⟩ options) rest

/-- What a toolkit makes of a graph, if nothing but its parameters matters to an application. -/
abbrev Application.Law := Json → Json → WriteOptions → Except ToolkitFault Json

section Separately

variable {σ : Type} {answerer : Dialogue.Answerer σ} {apply : Application.Law}
  {options : WriteOptions}

/-- The toolkit applies transformations by a law, whatever it was asked before. -/
def Application.Law.Governs (apply : Application.Law) (answerer : Dialogue.Answerer σ) : Prop :=
  ∀ graph transformation options state,
    (answerer (.apply graph transformation options) state).1 = apply graph transformation options

/-- It makes no difference to the next transformation whether a graph that came back is passed on
or sent again by the editor. -/
structure Resendable (apply : Application.Law) (options : WriteOptions) (graph next : Json) :
    Prop where
  noText : ∀ text, graph ≠ .str text
  same : ∀ arena, Arena.ofJson graph = .ok arena →
    apply graph next options = apply arena.toJson next options

/-- A step succeeds exactly when its target is there and the law of the toolkit gives a graph. -/
theorem applyStep_eq_ok (h : apply.Governs answerer) {arena : Arena}
    {current transformation graph : Json} {message : String} {state : σ} :
    ((applyStep options arena current transformation message).run.run answerer state).1 =
        .ok graph ↔
      (∃ target, targetGraph transformation = .ok target ∧
        arena.contains (.graph target) = true) ∧
      apply current transformation options = .ok graph := by
  by_cases hthere : ∃ target, targetGraph transformation = .ok target ∧
      arena.contains (.graph target) = true
  · obtain ⟨target, htarget, hgraph⟩ := hthere
    rw [(applyStep_asks answerer options state current message htarget hgraph).ends,
      mapError_eq_ok, h]
    exact (and_iff_right ⟨target, htarget, hgraph⟩).symm
  · obtain ⟨failure, hrefused⟩ := applyStep_refused answerer options state current message
      (by simpa using hthere)
    simp [hrefused.ends, hthere]

/-- So does a single application, if its payload can be read. -/
theorem ApplicationRequest.run_eq_ok (h : apply.Governs answerer)
    {payload transformation graph : Json} {state : σ} :
    ((ApplicationRequest.run ⟨payload, transformation⟩ options).run.run answerer state).1 =
        .ok graph ↔
      ∃ arena, readPayloadOrText payload = .ok arena ∧
        (∃ target, targetGraph transformation = .ok target ∧
          arena.contains (.graph target) = true) ∧
        apply arena.toJson transformation options = .ok graph := by
  rw [ApplicationRequest.run, Operation.bind_ends_ok]
  exact exists_congr fun arena => and_congr Iff.rfl (applyStep_eq_ok h)

/-- A batch gives what separate requests give, on a graph that the toolkit takes like the one that
the first request sends. -/
theorem applyInTurn_of_separately (h : apply.Governs answerer) (message : Nat → String)
    {payload current transformation graph : Json} {arena : Arena} {rest : List Json} {state : σ}
    (hread : readPayloadOrText payload = .ok arena)
    (hcurrent : apply current transformation options =
      apply arena.toJson transformation options)
    (hresend : ∀ place between, place < rest.length →
      ((applySeparately options payload ((transformation :: rest).take (place + 1))).run.run
        answerer state).1 = .ok between →
      Resendable apply options between (rest.getD place .null))
    (hdirect : ((applySeparately options payload (transformation :: rest)).run.run answerer
      state).1 = .ok graph) (position : Nat) (other : σ) :
    ((applyInTurn options message arena current position (transformation :: rest)).run.run
      answerer other).1 = .ok graph := by
  induction rest generalizing payload current transformation arena state position other with
  | nil =>
      obtain ⟨returned, hfirst, hdirect⟩ := Operation.bind_ends_ok.mp hdirect
      cases hdirect
      obtain ⟨found, hfound, hthere, happly⟩ := (ApplicationRequest.run_eq_ok h).mp hfirst
      obtain rfl := Except.ok.inj (hread.symm.trans hfound)
      exact (applyStep_eq_ok h).mpr ⟨hthere, hcurrent.trans happly⟩
  | cons next rest ih =>
      obtain ⟨returned, hfirst, hdirect⟩ := Operation.bind_ends_ok.mp hdirect
      obtain ⟨found, hfound, hthere, happly⟩ := (ApplicationRequest.run_eq_ok h).mp hfirst
      obtain rfl := Except.ok.inj (hread.symm.trans hfound)
      obtain ⟨_, hnext, _⟩ := Operation.bind_ends_ok.mp hdirect
      obtain ⟨again, hagain, _⟩ := (ApplicationRequest.run_eq_ok h).mp hnext
      obtain ⟨hnoText, hsame⟩ := hresend 0 returned (Nat.zero_lt_succ _)
        (Operation.bind_ends_ok.mpr ⟨returned, hfirst, rfl⟩)
      -- The next request has read the graph as a payload. As it is no text, it decodes as it
      -- stands.
      have hdecoded : Arena.ofJson returned = .ok again := by
        obtain ⟨document, hdocument, hpayload⟩ := readPayloadOrText_eq_ok.mp hagain
        cases returned with
        | str text => exact absurd rfl (hnoText text)
        | _ =>
            cases hdocument
            exact (readPayload_eq_ok.mp hpayload).2
      refine Operation.bind_ends_ok.mpr ⟨returned,
        (applyStep_eq_ok h).mpr ⟨hthere, hcurrent.trans happly⟩,
        Operation.bind_ends_ok.mpr ⟨again, ?_, ?_⟩⟩
      · rw [(Operation.runs_onGraph_ok answerer _ (message position) hdecoded).ends]
      · refine ih hagain (hsame again hdecoded) (fun place between hplace hbetween => ?_) hdirect
          (position + 1) _
        exact hresend (place + 1) between (Nat.succ_lt_succ hplace)
          (Operation.bind_ends_ok.mpr ⟨returned, hfirst, hbetween⟩)

/-- An ancestor that is read as a payload is read as an ancestor. -/
theorem decodeAncestor_of_readPayloadOrText {original : Json} {ancestor : Arena}
    (h : readPayloadOrText original = .ok ancestor) : decodeAncestor original = .ok ancestor := by
  obtain ⟨document, hdocument, hread⟩ := readPayloadOrText_eq_ok.mp h
  have hdecoded := (readPayload_eq_ok.mp hread).2
  cases original with
  | str text =>
      have htext : Json.ofText? text = some document := hdocument
      rw [decodeAncestor, htext]
      exact hdecoded
  | _ =>
      cases hdocument
      exact hdecoded

/-- Playing back a history gives the graph that separate requests give, if every graph that comes
back in between can be sent again. -/
theorem ReplayRequest.run_eq_separately (h : apply.Governs answerer) {request : ReplayRequest}
    {arena : Arena} {original graph : Json} {state : σ}
    (hgraph : readPayloadOrText request.graph = .ok arena)
    (horiginal : arena.root.ancestor? = some original)
    (hindex : request.index < arena.root.history.length)
    (hresend : ∀ place between, place < request.index →
      ((applySeparately options original (arena.root.history.take (place + 1))).run.run answerer
        state).1 = .ok between →
      Resendable apply options between (arena.root.history.getD (place + 1) .null))
    (hdirect : ((applySeparately options original
      (arena.root.history.take (request.index + 1))).run.run answerer state).1 = .ok graph)
    (other : σ) : ((request.run options).run.run answerer other).1 = .ok graph := by
  rw [run_eq hgraph horiginal hindex]
  cases hhistory : arena.root.history with
  | nil => simp [hhistory] at hindex
  | cons first rest =>
      simp only [hhistory, List.take_succ_cons, List.getD_cons_succ, List.length_cons]
        at hresend hdirect hindex ⊢
      obtain ⟨_, hfirst, _⟩ := Operation.bind_ends_ok.mp hdirect
      obtain ⟨ancestor, hread, _⟩ := (ApplicationRequest.run_eq_ok h).mp hfirst
      have hancestor := decodeAncestor_of_readPayloadOrText hread
      refine Operation.bind_ends_ok.mpr ⟨ancestor, ?_, ?_⟩
      · rw [(Operation.runs_onGraph_ok answerer _ replayFailedMessage hancestor).ends]
      · refine applyInTurn_of_separately h replayMessage hread rfl ?_ hdirect 1 _
        -- The hypothesis speaks of a prefix of the whole history, the lemma of a prefix of the part
        -- that
        -- is played back.
        intro place between hplace hbetween
        have hbelow : place < request.index := lt_of_lt_of_le hplace (List.length_take_le _ _)
        rw [List.take_succ_cons, List.take_take, Nat.min_eq_left (Nat.le_of_lt hbelow)]
          at hbetween
        have hnext : (rest.take request.index).getD place .null = rest.getD place .null := by
          rw [List.getD_eq_getElem?_getD, List.getElem?_take_of_lt hbelow,
            List.getD_eq_getElem?_getD]
        rw [hnext]
        exact hresend place between hbelow hbetween

end Separately

namespace ReplayRequest

/-- A toolkit that applies transformations by a law and can do nothing else. -/
def lawful (apply : Application.Law) : Dialogue.Answerer Unit
  | .apply graph transformation options, state => (apply graph transformation options, state)
  | _, state => (.error .noResult, state)

theorem governs_lawful (apply : Application.Law) : apply.Governs (lawful apply) :=
  fun _ _ _ _ => rfl

/-- Every transformation is noted among the attributes of the graph. -/
def notingLaw : Application.Law := fun graph transformation _ =>
  match graph, transformation.member? "transformation" with
  | .obj fields, some (.str name) =>
    .ok (.obj (Fields.modifyAttributes fields fun attributes =>
      Fields.put attributes name (.bool true)))
  | _, _ => .error .noResult

def notedDocument (names : List String) : Json :=
  .obj [("attributes", .obj (names.map fun name => (name, .bool true))),
    ("sdfg_list_id", .nat 0), ("nodes", .arr []), ("edges", .arr [])]

/-- The graph of `notedDocument` is written as it is read. -/
theorem resendable_notedDocument (next : Json) :
    Resendable notingLaw ⟨false⟩ (notedDocument ["A"]) next where
  noText := fun text => by simp [notedDocument]
  same := fun arena hdecoded => by
    have hwritten : (Arena.ofJson (notedDocument ["A"])).map Arena.toJson =
        .ok (notedDocument ["A"]) := by decide
    rw [hdecoded] at hwritten
    rw [Except.ok.inj hwritten]

theorem recordedRequest_eq_separately :
    notingLaw.Governs (lawful notingLaw) ∧
    readPayloadOrText recordedRequest.graph = .ok recordedArena ∧
    recordedArena.root.ancestor? = some pristineDocument ∧
    recordedRequest.index < recordedArena.root.history.length ∧
    (∀ place between, place < recordedRequest.index →
      ((applySeparately ⟨false⟩ pristineDocument
        (recordedArena.root.history.take (place + 1))).run.run (lawful notingLaw) ()).1 =
          .ok between →
      Resendable notingLaw ⟨false⟩ between
        (recordedArena.root.history.getD (place + 1) .null)) ∧
    ((applySeparately ⟨false⟩ pristineDocument
      (recordedArena.root.history.take (recordedRequest.index + 1))).run.run
        (lawful notingLaw) ()).1 = .ok (notedDocument ["A", "B"]) ∧
    ((recordedRequest.run ⟨false⟩).run.run (lawful notingLaw) ()).1 =
      .ok (notedDocument ["A", "B"]) := by
  have horiginal : recordedArena.root.ancestor? = some pristineDocument := by decide
  have hindex : recordedRequest.index < recordedArena.root.history.length := by decide
  have hresend : ∀ place between, place < recordedRequest.index →
      ((applySeparately ⟨false⟩ pristineDocument
        (recordedArena.root.history.take (place + 1))).run.run (lawful notingLaw) ()).1 =
          .ok between →
      Resendable notingLaw ⟨false⟩ between
        (recordedArena.root.history.getD (place + 1) .null) := by
    intro place between hplace hbetween
    obtain rfl : place = 0 := Nat.lt_one_iff.mp hplace
    have hfirst : ((applySeparately ⟨false⟩ pristineDocument
        (recordedArena.root.history.take (0 + 1))).run.run (lawful notingLaw) ()).1 =
          .ok (notedDocument ["A"]) := by decide
    obtain rfl := Except.ok.inj (hfirst.symm.trans hbetween)
    exact resendable_notedDocument _
  have hdirect : ((applySeparately ⟨false⟩ pristineDocument
      (recordedArena.root.history.take (recordedRequest.index + 1))).run.run
        (lawful notingLaw) ()).1 = .ok (notedDocument ["A", "B"]) := by decide
  exact ⟨governs_lawful notingLaw, read_recordedRequest, horiginal, hindex, hresend, hdirect,
    run_eq_separately (governs_lawful notingLaw) read_recordedRequest horiginal hindex hresend
      hdirect ()⟩

/-- A toolkit may give a graph back as a text, which a request accepts and a playback does not. -/
def textLaw : Application.Law := fun _ _ _ =>
  .ok (.str "\x7b\x7d")

def wrapped (graph : Json) : Fields :=
  [("attributes", .obj [("given", graph)])]

/-- A toolkit may tell a graph that it gave back from what the editor makes of it. -/
def wrappingLaw : Application.Law := fun graph _ _ =>
  .ok (.obj (wrapped graph))

/-- Then a playback fails where separate requests succeed, or gives another graph. -/
theorem recordedRequest_ne_separately :
    readPayloadOrText recordedRequest.graph = .ok recordedArena ∧
    recordedArena.root.ancestor? = some pristineDocument ∧
    recordedRequest.index < recordedArena.root.history.length ∧
    (let direct := (applySeparately ⟨false⟩ pristineDocument
        (recordedArena.root.history.take (recordedRequest.index + 1))).run
      let replay := (recordedRequest.run ⟨false⟩).run
      textLaw.Governs (lawful textLaw) ∧
      (direct.run (lawful textLaw) ()).1 = .ok (.str "\x7b\x7d") ∧
      (replay.run (lawful textLaw) ()).1 = .error ⟨replayMessage 1,
        "InvalidGraph: Invalid SDFG: expected SDFG to be an object, found a string"⟩ ∧
      wrappingLaw.Governs (lawful wrappingLaw) ∧
      (direct.run (lawful wrappingLaw) ()).1 = .ok (.obj (wrapped (.obj
        (wrapped (notedDocument []) ++
          [("sdfg_list_id", .nat 0), ("nodes", .arr []), ("edges", .arr [])])))) ∧
      (replay.run (lawful wrappingLaw) ()).1 =
        .ok (.obj (wrapped (.obj (wrapped (notedDocument [])))))) :=
  ⟨read_recordedRequest, by decide, by decide, governs_lawful textLaw, by decide +kernel,
    by decide +kernel, governs_lawful wrappingLaw, by decide, by decide⟩

end ReplayRequest

end DataflowEditor
