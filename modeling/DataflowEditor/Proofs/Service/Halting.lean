import DataflowEditor.Proofs.Service.History

/-! # Where transformations in turn come to a halt

A batch and a playback apply transformations in turn, and the first step that fails ends the run. A
step fails over its entry, over the graph that the entry is for, in the toolkit, or over the graph
that comes back when more is to be applied to it. The message names the place of the step in all
cases but the first: an entry that is of no use has a message of its own, which names no place.
-/

namespace DataflowEditor

/-! ## Ordinals -/

namespace Text

/-- How a number is written as an English ordinal. -/
inductive IsOrdinal (n : Nat) : String → Prop where
  | teen (h : n % 100 = 11 ∨ n % 100 = 12 ∨ n % 100 = 13) : IsOrdinal n (decimal n ++ "th")
  | first (h : n % 10 = 1) (hteen : n % 100 ≠ 11) : IsOrdinal n (decimal n ++ "st")
  | second (h : n % 10 = 2) (hteen : n % 100 ≠ 12) : IsOrdinal n (decimal n ++ "nd")
  | third (h : n % 10 = 3) (hteen : n % 100 ≠ 13) : IsOrdinal n (decimal n ++ "rd")
  | other (h : n % 10 = 0 ∨ 4 ≤ n % 10) : IsOrdinal n (decimal n ++ "th")

theorem isOrdinal_ordinal (n : Nat) : IsOrdinal n (ordinal n) := by
  unfold ordinal ordinalEnding
  split
  next hteen => exact .teen (by omega)
  next hteen =>
    split
    next h => exact .first h (by omega)
    next h => exact .second h (by omega)
    next h => exact .third h (by omega)
    next hfirst hsecond hthird =>
      have hfirst : n % 10 ≠ 1 := hfirst
      have hsecond : n % 10 ≠ 2 := hsecond
      have hthird : n % 10 ≠ 3 := hthird
      exact .other (by omega)

end Text

/-! ## Steps that fail -/

/-- Why a step fails. -/
inductive Snag where
  /-- The entry is no transformation, or does not say which graph it is for. -/
  | unusable (error : GraphError)
  /-- The graph that it is for is not there. -/
  | missing (target : Nat)
  /-- The toolkit does not apply it. -/
  | refused (fault : ToolkitFault)
  /-- What comes back is no graph that the next entry could be applied to. -/
  | garbled (error : GraphError)

/-- What the editor is told, where the place has this message. -/
def Snag.failure (message : String) : Snag → Failure
  | .unusable error => ⟨"Failed to parse the applied transformation", error.details⟩
  | .missing target => ⟨message, (GraphError.graphNotFound (signedWord target)).details⟩
  | .refused fault => ⟨message, fault.details⟩
  | .garbled error => ⟨message, error.details⟩

section Runs

variable {σ : Type} (answerer : Dialogue.Answerer σ) (options : WriteOptions)

/-- Of the transformations that are applied to a document in turn, the first being checked against
an arena, so many succeed and the next one fails. -/
inductive HaltsAfter : Arena → Json → σ → List Json → Nat → Snag → Prop where
  | unusable {arena : Arena} {current transformation : Json} {state : σ} {rest : List Json}
      {error : GraphError} (htarget : targetGraph transformation = .error error) :
      HaltsAfter arena current state (transformation :: rest) 0 (.unusable error)
  | missing {arena : Arena} {current transformation : Json} {state : σ} {rest : List Json}
      {target : Nat} (htarget : targetGraph transformation = .ok target)
      (hgraph : ¬ arena.contains (.graph target) = true) :
      HaltsAfter arena current state (transformation :: rest) 0 (.missing target)
  | refused {arena : Arena} {current transformation : Json} {state : σ} {rest : List Json}
      {target : Nat} {fault : ToolkitFault} (htarget : targetGraph transformation = .ok target)
      (hgraph : arena.contains (.graph target) = true)
      (hanswer : (answerer (.apply current transformation options) state).1 = .error fault) :
      HaltsAfter arena current state (transformation :: rest) 0 (.refused fault)
  | garbled {arena : Arena} {current transformation next : Json} {state : σ} {rest : List Json}
      {target : Nat} {graph : Json} {error : GraphError}
      (htarget : targetGraph transformation = .ok target)
      (hgraph : arena.contains (.graph target) = true)
      (hanswer : (answerer (.apply current transformation options) state).1 = .ok graph)
      (hdecoded : Arena.ofJson graph = .error error) :
      HaltsAfter arena current state (transformation :: next :: rest) 0 (.garbled error)
  | later {arena again : Arena} {current transformation next : Json} {state : σ}
      {rest : List Json} {target count : Nat} {graph : Json} {snag : Snag}
      (htarget : targetGraph transformation = .ok target)
      (hgraph : arena.contains (.graph target) = true)
      (hanswer : (answerer (.apply current transformation options) state).1 = .ok graph)
      (hdecoded : Arena.ofJson graph = .ok again)
      (hrest : HaltsAfter again graph (answerer (.apply current transformation options) state).2
        (next :: rest) count snag) :
      HaltsAfter arena current state (transformation :: next :: rest) (count + 1) snag

variable {answerer options}

/-- A step that fails is the last one. -/
theorem applyInTurn_stops {message : Nat → String} {arena : Arena} {current transformation : Json}
    {position : Nat} {state last : σ} {said : List Answered} {failure : Failure}
    (h : (applyStep options arena current transformation (message position)).Runs answerer state
      said (.error failure) last) (rest : List Json) :
    (applyInTurn options message arena current position (transformation :: rest)).Runs answerer
      state said (.error failure) last := by
  cases rest with
  | nil => exact h
  | cons next rest => exact h.bind_error

/-- A run that comes to a halt fails with the message for the place where it does, and has asked
once for each step at the most. -/
theorem HaltsAfter.runs {arena : Arena} {current : Json} {state : σ} {transformations : List Json}
    {count : Nat} {snag : Snag}
    (h : HaltsAfter answerer options arena current state transformations count snag)
    (message : Nat → String) (position : Nat) : ∃ said last,
    (applyInTurn options message arena current position transformations).Runs answerer state said
      (.error (snag.failure (message (position + count)))) last ∧ said.length ≤ count + 1 := by
  induction h generalizing position with
  | unusable htarget =>
      exact ⟨[], _, applyInTurn_stops (applyStep_unusable answerer options _ _ _ _ htarget) _,
        Nat.zero_le 1⟩
  | missing htarget hgraph =>
      exact ⟨[], _, applyInTurn_stops
        (applyStep_missing answerer options _ _ _ htarget hgraph) _, Nat.zero_le 1⟩
  | refused htarget hgraph hanswer =>
      have hstep := applyStep_answered answerer options (message position) htarget hgraph hanswer
      exact ⟨[_], _, applyInTurn_stops hstep _, Nat.le_refl 1⟩
  | garbled htarget hgraph hanswer hdecoded =>
      exact ⟨[_], _, (applyStep_answered answerer options _ htarget hgraph hanswer).bind_ok
        (Operation.runs_onGraph_error answerer _ _ hdecoded).bind_error, Nat.le_refl 1⟩
  | later htarget hgraph hanswer hdecoded _ ih =>
      have hstep := applyStep_answered answerer options (message position) htarget hgraph hanswer
      obtain ⟨said, last, hrest, hlength⟩ := ih (position + 1)
      rw [Nat.add_right_comm] at hrest
      exact ⟨_ :: said, last,
        hstep.bind_ok ((Operation.runs_onGraph_ok answerer _ _ hdecoded).bind_ok hrest),
        Nat.succ_le_succ hlength⟩

/-- A run that does not come to a halt gives a graph. -/
theorem applyInTurn_halts_or_ends (message : Nat → String) (arena : Arena) (current : Json)
    (position : Nat) (transformations : List Json) (state : σ) :
    (∃ count snag, HaltsAfter answerer options arena current state transformations count snag) ∨
      ∃ graph said last, (applyInTurn options message arena current position
        transformations).Runs answerer state said (.ok graph) last := by
  induction transformations generalizing arena current position state with
  | nil => exact .inr ⟨current, [], state, rfl, rfl⟩
  | cons transformation rest ih =>
      cases htarget : targetGraph transformation with
      | error error => exact .inl ⟨0, _, .unusable htarget⟩
      | ok target =>
      by_cases hgraph : arena.contains (.graph target) = true
      case neg => exact .inl ⟨0, _, .missing htarget hgraph⟩
      cases hanswer : (answerer (.apply current transformation options) state).1 with
      | error fault => exact .inl ⟨0, _, .refused htarget hgraph hanswer⟩
      | ok graph =>
      have hstep := applyStep_answered answerer options (message position) htarget hgraph hanswer
      cases rest with
      | nil => exact .inr ⟨graph, _, _, hstep⟩
      | cons next rest =>
      cases hdecoded : Arena.ofJson graph with
      | error error => exact .inl ⟨0, _, .garbled htarget hgraph hanswer hdecoded⟩
      | ok again =>
      obtain ⟨count, snag, hhalts⟩ | ⟨final, said, last, hends⟩ := ih again graph (position + 1)
        (answerer (.apply current transformation options) state).2
      · exact .inl ⟨count + 1, snag, .later htarget hgraph hanswer hdecoded hhalts⟩
      · exact .inr ⟨final, _, last, hstep.bind_ok
          ((Operation.runs_onGraph_ok answerer _ _ hdecoded).bind_ok hends)⟩

end Runs

/-! ## Batches and playbacks -/

/-- An operation that has the graph it begins with decoded, and applies transformations to it in
turn: a batch, or a playback up to an entry that is there. The texts say what is attempted and what
is counted. -/
inductive AppliesInTurn (options : WriteOptions) :
    Operation Json → Arena → List Json → String → String → Prop where
  | batch {request : BatchRequest} {arena : Arena}
      (hgraph : readPayloadOrText request.graph = .ok arena) :
      AppliesInTurn options (request.run options) arena request.transformations
        "Failed to apply the transformation to the SDFG" " transformation"
  | playback {request : ReplayRequest} {arena ancestor : Arena} {original : Json}
      (hgraph : readPayloadOrText request.graph = .ok arena)
      (horiginal : arena.root.ancestor? = some original)
      (hindex : request.index < arena.root.history.length)
      (hancestor : decodeAncestor original = .ok ancestor) :
      AppliesInTurn options (request.run options) ancestor
        (arena.root.history.take (request.index + 1))
        "Failed to play back the transformation history" " history point"

namespace AppliesInTurn

variable {options : WriteOptions} {operation : Operation Json} {beginning : Arena}
  {transformations : List Json} {attempt counted : String}

theorem eq_applyInTurn
    (h : AppliesInTurn options operation beginning transformations attempt counted) :
    operation = applyInTurn options
      (fun position => attempt ++ ", failed at " ++ Text.ordinal position ++ counted) beginning
      beginning.toJson 1 transformations := by
  cases h with
  | batch hgraph =>
      rw [BatchRequest.run, hgraph]
      exact applyFrom_eq options _ _ _ _
  | playback hgraph horiginal hindex hancestor =>
      rw [ReplayRequest.run_eq hgraph horiginal hindex, hancestor]
      rfl

/-- However the toolkit answers, a batch or a playback fails exactly if one of its steps does. Where
the first step that fails is the one after `count` others, the message names it by its ordinal,
unless the entry itself is of no use, and the toolkit was called once for each step at the most. -/
theorem failure_names_place
    (h : AppliesInTurn options operation beginning transformations attempt counted) {σ : Type}
    (answerer : Dialogue.Answerer σ) (state : σ) :
    (∀ count snag, HaltsAfter answerer options beginning beginning.toJson state transformations
        count snag →
      ∃ ordinal, Text.IsOrdinal (count + 1) ordinal ∧
        (operation.run.run answerer state).1 =
          .error (snag.failure (attempt ++ ", failed at " ++ ordinal ++ counted)) ∧
        (operation.run.calls answerer state).length ≤ count + 1) ∧
      ∀ failure, (operation.run.run answerer state).1 = .error failure →
        ∃ count snag, HaltsAfter answerer options beginning beginning.toJson state transformations
          count snag := by
  obtain rfl := h.eq_applyInTurn
  refine ⟨fun count snag hhalts => ?_, fun failure hfailed => ?_⟩
  · obtain ⟨said, last, hruns, hlength⟩ := hhalts.runs
      (fun position => attempt ++ ", failed at " ++ Text.ordinal position ++ counted) 1
    rw [Nat.add_comm] at hruns
    refine ⟨_, Text.isOrdinal_ordinal (count + 1), congrArg Prod.fst hruns.ends, ?_⟩
    rwa [← Dialogue.trace_calls, hruns.trace, List.length_map]
  · obtain hhalts | ⟨graph, said, last, hends⟩ := applyInTurn_halts_or_ends
      (fun position => attempt ++ ", failed at " ++ Text.ordinal position ++ counted) beginning
      beginning.toJson 1 transformations state
    · exact hhalts
    · rw [hends.ends] at hfailed
      cases hfailed

/-! ### A playback that tires the toolkit, and an entry of no use -/

def pristineArena : Arena :=
  ⟨[⟨[], [], none, [("attributes", .obj [])]⟩]⟩

/-- The graph of `pristineArena` as it is sent, with what is decoded from that. -/
def writtenArena : Arena :=
  ⟨[⟨[], [], none, [("attributes", .obj []), ("sdfg_list_id", .nat 0)]⟩]⟩

theorem ofJson_pristineArena : Arena.ofJson pristineArena.toJson = .ok writtenArena := by
  decide

/-- The toolkit answers the first call and times out at the second one. -/
theorem recordedRequest_names_place :
    AppliesInTurn ⟨true⟩ (ReplayRequest.recordedRequest.run ⟨true⟩) pristineArena
      (ReplayRequest.recordedArena.root.history.take 2)
      "Failed to play back the transformation history" " history point" ∧
    HaltsAfter ReplayRequest.tiringToolkit ⟨true⟩ pristineArena pristineArena.toJson 1
      (ReplayRequest.recordedArena.root.history.take 2) 1 (.refused .timeout) ∧
    ∃ ordinal, Text.IsOrdinal 2 ordinal ∧
      ((ReplayRequest.recordedRequest.run ⟨true⟩).run.run ReplayRequest.tiringToolkit 1).1 =
        .error ⟨"Failed to play back the transformation history, failed at " ++ ordinal ++
          " history point", "TimeoutError: Timeout"⟩ ∧
      ((ReplayRequest.recordedRequest.run ⟨true⟩).run.calls ReplayRequest.tiringToolkit 1).length ≤
        2 := by
  have happlies : AppliesInTurn ⟨true⟩ (ReplayRequest.recordedRequest.run ⟨true⟩) pristineArena
      (ReplayRequest.recordedArena.root.history.take 2)
      "Failed to play back the transformation history" " history point" :=
    .playback ReplayRequest.read_recordedRequest rfl (by decide) (by decide)
  have hhalts : HaltsAfter ReplayRequest.tiringToolkit ⟨true⟩ pristineArena pristineArena.toJson 1
      (ReplayRequest.recordedArena.root.history.take 2) 1 (.refused .timeout) :=
    .later rfl (by decide) rfl ofJson_pristineArena (.refused rfl (by decide) rfl)
  refine ⟨happlies, hhalts, ?_⟩
  exact (failure_names_place happlies ReplayRequest.tiringToolkit 1).1 1 _ hhalts

/-- The second of two recorded entries is a text and no transformation. -/
def spoiltArena : Arena :=
  ⟨[⟨[], [], none, [("attributes", .obj [("orig_sdfg", ReplayRequest.pristineDocument),
    ("transformation_hist", .arr [.obj [("transformation", .str "A")], .str "B"])])]⟩]⟩

def spoiltRequest : ReplayRequest :=
  ⟨spoiltArena.toJson, 1⟩

/-- The playback fails at its second step, and does not say so. -/
theorem spoiltRequest_names_no_place :
    (∃ error, HaltsAfter ReplayRequest.tiringToolkit ⟨true⟩ pristineArena pristineArena.toJson 2
      (spoiltArena.root.history.take 2) 1 (.unusable error)) ∧
    ((spoiltRequest.run ⟨true⟩).run.run ReplayRequest.tiringToolkit 2).1 =
      .error ⟨"Failed to parse the applied transformation",
        "InvalidGraph: Invalid SDFG: transformation is not an object"⟩ ∧
    ∀ details, ((spoiltRequest.run ⟨true⟩).run.run ReplayRequest.tiringToolkit 2).1 ≠
      .error ⟨"Failed to play back the transformation history, failed at " ++ Text.ordinal 2 ++
        " history point", details⟩ := by
  have hends : ((spoiltRequest.run ⟨true⟩).run.run ReplayRequest.tiringToolkit 2).1 =
      .error ⟨"Failed to parse the applied transformation",
        "InvalidGraph: Invalid SDFG: transformation is not an object"⟩ := by
    decide +kernel
  refine ⟨⟨_, .later rfl (by decide) rfl ofJson_pristineArena (.unusable rfl)⟩, hends,
    fun details hsame => ?_⟩
  rw [hends] at hsame
  have hmessage : "Failed to parse the applied transformation" =
      "Failed to play back the transformation history, failed at " ++ Text.ordinal 2 ++
        " history point" :=
    congrArg Failure.message (Except.error.inj hsame)
  revert hmessage
  decide

end AppliesInTurn

end DataflowEditor
