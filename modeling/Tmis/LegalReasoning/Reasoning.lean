import Tmis.CaseIntelligence.Profile
import Tmis.LegalResearch.Ranking

/-!
# The engines of a reasoning run

`legal_reasoning`: hypotheses about a question, arguments for them, counter-arguments against these, and the evidence
the hypotheses rest on.  Each of them gets a new identifier, and names what it is about by its identifier.

* `Hypothesis`, `Argument`, `CounterArgument`, `ReasoningEvidenceLink` — what the engines make;
* `drawn` — things with identifiers drawn one after the other;
* `generateHypotheses`, `buildArguments`, `buildCounterArguments`, `linkEvidence` — the engines;
* `mem_buildArguments`, `mem_buildCounterArguments`, `mem_linkEvidence` — what they name is there.
-/

namespace Tmis.LegalReasoning

open Tmis.Lib Tmis.CaseIntelligence Tmis.LegalResearch PyFloat

inductive HypothesisStatus where
  | proposed | supported | weakened | validated | rejected

structure Hypothesis (F : Type) where
  id : Uuid
  description : String
  supportingFactIds : List Uuid := []
  references : List String := []
  confidence : F
  status : HypothesisStatus := .proposed

structure Argument (F : Type) where
  id : Uuid
  hypothesisId : Uuid
  claim : String
  sourceConnector : String
  sourceReference : String
  excerpt : String
  confidence : F

structure CounterArgument (F : Type) where
  id : Uuid
  argumentId : Uuid
  claim : String
  sourceConnector : String
  sourceReference : String
  excerpt : String
  confidence : F

structure ReasoningEvidenceLink (F : Type) where
  id : Uuid
  factId : Option Uuid
  documentId : Option String
  hypothesisId : Option Uuid
  argumentId : Option Uuid
  reliabilityScore : F

/-- Things with new identifiers, which are drawn in their order, the first one `next`. -/
def drawn {α : Type} (next : Uuid) (drafts : List (Uuid → α)) : List α :=
  (drafts.zipIdx next).map fun (draft, id) => draft id

section Engines

variable {F : Type} [PyFloat F] (text : PyText)

/-! ### Hypotheses -/

/-- The longer words of a text. -/
def keywords (s : String) : List String := ((text.words s).filter fun t => 2 < t.length).map text.lower

def rstrip (c : Char) (s : String) : String := String.ofList ((s.toList.reverse.dropWhile (· = c)).reverse)

def strippedQuestion (question : String) : String := text.strip (rstrip '?' (text.strip question))

def maxReferences : ℕ := 5

/-- `HeuristicHypothesisEngine.generate`. -/
def generateHypotheses (next : Uuid) (question : String) (facts : List (Fact F))
    (researchResults : List (ResearchResult F)) : List (Hypothesis F) :=
  let supporting := facts.filter fun fact =>
    (keywords text question).any (· ∈ (text.words fact.description).map text.lower)
  let references := (researchResults.take maxReferences).map (·.reference)
  drawn next [
    fun id =>
      { id
        description := "Hypothèse favorable : " ++ strippedQuestion text question ++ " est fondé."
        supportingFactIds := supporting.map (·.id)
        references
        confidence := ofRat (1 / 2) },
    fun id =>
      { id
        description := "Hypothèse contraire : " ++ strippedQuestion text question ++ " n'est pas fondé."
        references
        confidence := ofRat (3 / 10) }]

/-! ### Arguments -/

/-- A result shares a longer word with the description of a hypothesis. -/
def overlaps (hypothesis : Hypothesis F) (result : ResearchResult F) : Bool :=
  (keywords text hypothesis.description).any fun keyword =>
    occursIn keyword (text.lower (result.title ++ " " ++ result.excerpt))

def newArgument (hypothesis : Hypothesis F) (result : ResearchResult F) (id : Uuid) : Argument F where
  id
  hypothesisId := hypothesis.id
  claim := "« " ++ result.title ++ " » soutient : " ++ hypothesis.description
  sourceConnector := result.connector
  sourceReference := result.reference
  excerpt := result.excerpt
  confidence := result.finalScore

/-- `HeuristicArgumentEngine.build`. -/
def buildArguments (next : Uuid) (hypotheses : List (Hypothesis F)) (researchResults : List (ResearchResult F)) :
    List (Argument F) :=
  drawn next (hypotheses.flatMap fun hypothesis =>
    (researchResults.filter (overlaps text hypothesis)).map (newArgument hypothesis))

/-! ### Counter-arguments -/

/-- `str` of an identifier. -/
abbrev IdText := Uuid → String

variable (idText : IdText)

def factCounter (argument : Argument F) (fact : Fact F) (id : Uuid) : CounterArgument F where
  id
  argumentId := argument.id
  claim := "Le fait « " ++ fact.description ++ " » est contredit par " ++
    toString fact.contradictingDocumentIds.elems.length ++ " document(s) du dossier."
  sourceConnector := "case_facts"
  sourceReference := idText fact.id
  excerpt := fact.description
  confidence := sub (ofRat 1) fact.confidence

def sourceCounter (argument : Argument F) (alternative : ResearchResult F) (id : Uuid) : CounterArgument F where
  id
  argumentId := argument.id
  claim := "Un point de vue distinct issu de « " ++ alternative.title ++
    " » mérite d'être confronté à cet argument."
  sourceConnector := alternative.connector
  sourceReference := alternative.reference
  excerpt := alternative.excerpt
  confidence := alternative.finalScore

/-- `_contradicting_fact_counter`. -/
def contradictingFactCounter (argument : Argument F) (hypothesis : Option (Hypothesis F))
    (factsById : Dict Uuid (Fact F)) : Option (Uuid → CounterArgument F) :=
  match hypothesis with
  | none => none
  | some hypothesis =>
    hypothesis.supportingFactIds.findSome? fun factId =>
      match factsById.get factId with
      | some fact => if fact.contradictingDocumentIds.elems = [] then none else some (factCounter idText argument fact)
      | none => none

/-- `_contrasting_source_counter`. -/
def contrastingSourceCounter (argument : Argument F) (researchResults : List (ResearchResult F)) :
    Option (Uuid → CounterArgument F) :=
  (researchResults.find? fun r => r.connector ≠ argument.sourceConnector).map (sourceCounter argument)

/-- `HeuristicCounterArgumentEngine.build`. -/
def buildCounterArguments (next : Uuid) (arguments : List (Argument F)) (hypotheses : List (Hypothesis F))
    (facts : List (Fact F)) (researchResults : List (ResearchResult F)) : List (CounterArgument F) :=
  let hypothesesById := Dict.ofEntries (hypotheses.map fun h => (h.id, h))
  let factsById := Dict.ofEntries (facts.map fun f => (f.id, f))
  drawn next (arguments.filterMap fun argument =>
    (contradictingFactCounter idText argument (hypothesesById.get argument.hypothesisId) factsById).or
      (contrastingSourceCounter argument researchResults))

/-! ### Evidence -/

/-- `_reliability`. -/
def reliability (fact : Fact F) : F :=
  let confirming := fact.confirmingDocumentIds.elems.length
  let contradicting := fact.contradictingDocumentIds.elems.length
  let corroboration := ofRat ((1 + confirming : ℕ) / (1 + confirming + contradicting : ℕ))
  PyFloat.max (ofRat 0) (PyFloat.min (ofRat 1) (mul fact.confidence corroboration))

/-- The documents of a fact, or none once. -/
def documentIds (order : SetOrder) (fact : Fact F) : List (Option String) :=
  if fact.sourceDocumentIds.elems = [] then [none] else (order.list fact.sourceDocumentIds).map some

def newLink (hypothesis : Hypothesis F) (argumentId : Option Uuid) (fact : Fact F) (documentId : Option String)
    (id : Uuid) : ReasoningEvidenceLink F where
  id
  factId := some fact.id
  documentId
  hypothesisId := some hypothesis.id
  argumentId
  reliabilityScore := reliability fact

/-- `HeuristicEvidenceEngine.link`. -/
def linkEvidence (order : SetOrder) (next : Uuid) (hypotheses : List (Hypothesis F)) (arguments : List (Argument F))
    (facts : List (Fact F)) : List (ReasoningEvidenceLink F) :=
  let factsById := Dict.ofEntries (facts.map fun f => (f.id, f))
  drawn next (hypotheses.flatMap fun hypothesis =>
    let argumentId := (arguments.find? fun a => a.hypothesisId = hypothesis.id).map (·.id)
    hypothesis.supportingFactIds.flatMap fun factId =>
      match factsById.get factId with
      | none => []
      | some fact => (documentIds order fact).map (newLink hypothesis argumentId fact))

end Engines

/-! ### What the engines name -/

section Drawn

variable {α : Type} {next : Uuid} {drafts : List (Uuid → α)} {x : α}

lemma mem_drawn (h : x ∈ drawn next drafts) : ∃ draft ∈ drafts, ∃ id, x = draft id := by
  obtain ⟨⟨draft, id⟩, hmem, rfl⟩ := List.mem_map.mp h
  have hdraft : draft ∈ (drafts.zipIdx next).map Prod.fst := List.mem_map_of_mem hmem
  rw [List.zipIdx_map_fst] at hdraft
  exact ⟨draft, hdraft, id, rfl⟩

/-- Identifiers that are drawn differ. -/
lemma nodup_drawn {key : α → Uuid} (h : ∀ draft ∈ drafts, ∀ id, key (draft id) = id) :
    ((drawn next drafts).map key).Nodup := by
  have hkeys : (drawn next drafts).map key = (drafts.zipIdx next).map Prod.snd := by
    rw [drawn, List.map_map]
    refine List.map_congr_left fun entry hentry => ?_
    obtain ⟨draft, id⟩ := entry
    have hdraft : draft ∈ (drafts.zipIdx next).map Prod.fst := List.mem_map_of_mem hentry
    rw [List.zipIdx_map_fst] at hdraft
    exact h draft hdraft id
  rw [hkeys, List.zipIdx_map_snd]
  exact List.nodup_range'

end Drawn

section Named

variable {F : Type} {text : PyText} {idText : IdText} {order : SetOrder} {next : Uuid}
  {hypotheses : List (Hypothesis F)} {arguments : List (Argument F)} {facts : List (Fact F)}
  {researchResults : List (ResearchResult F)}

lemma nodup_buildArguments : ((buildArguments text next hypotheses researchResults).map (·.id)).Nodup := by
  refine nodup_drawn fun draft hdraft id => ?_
  obtain ⟨hypothesis, -, hdraft⟩ := List.mem_flatMap.mp hdraft
  obtain ⟨result, -, rfl⟩ := List.mem_map.mp hdraft
  rfl

/-- An argument is about one of the hypotheses. -/
lemma mem_buildArguments {argument : Argument F}
    (h : argument ∈ buildArguments text next hypotheses researchResults) :
    argument.hypothesisId ∈ hypotheses.map (·.id) := by
  obtain ⟨draft, hdraft, id, rfl⟩ := mem_drawn h
  obtain ⟨hypothesis, hmem, hdraft⟩ := List.mem_flatMap.mp hdraft
  obtain ⟨result, -, rfl⟩ := List.mem_map.mp hdraft
  exact List.mem_map_of_mem hmem

variable [PyFloat F]

lemma nodup_generateHypotheses (question : String) :
    ((generateHypotheses text next question facts researchResults).map (·.id)).Nodup := by
  refine nodup_drawn fun draft hdraft id => ?_
  simp only [List.mem_cons, List.not_mem_nil, or_false] at hdraft
  obtain rfl | rfl := hdraft <;> rfl

lemma generateHypotheses_ne_nil (question : String) :
    generateHypotheses text next question facts researchResults ≠ [] := List.cons_ne_nil _ _

/-- What is drafted for an argument is about it. -/
lemma counter_drafted {argument : Argument F} {hypothesis : Option (Hypothesis F)} {factsById : Dict Uuid (Fact F)}
    {draft : Uuid → CounterArgument F}
    (h : (contradictingFactCounter idText argument hypothesis factsById).or
      (contrastingSourceCounter argument researchResults) = some draft) (id : Uuid) :
    (draft id).id = id ∧ (draft id).argumentId = argument.id := by
  rcases Option.or_eq_some_iff.mp h with hfact | ⟨-, hsource⟩
  · cases hypothesis with
    | none => cases hfact
    | some hypothesis =>
      obtain ⟨factId, -, hfact⟩ := List.exists_of_findSome?_eq_some hfact
      split at hfact
      · split_ifs at hfact
        cases hfact
        exact ⟨rfl, rfl⟩
      · cases hfact
  · obtain ⟨alternative, -, rfl⟩ := Option.map_eq_some_iff.mp hsource
    exact ⟨rfl, rfl⟩

lemma nodup_buildCounterArguments :
    ((buildCounterArguments idText next arguments hypotheses facts researchResults).map (·.id)).Nodup := by
  refine nodup_drawn fun draft hdraft id => ?_
  obtain ⟨argument, -, hdraft⟩ := List.mem_filterMap.mp hdraft
  exact (counter_drafted hdraft id).1

/-- A counter-argument is about one of the arguments. -/
lemma mem_buildCounterArguments {counter : CounterArgument F}
    (h : counter ∈ buildCounterArguments idText next arguments hypotheses facts researchResults) :
    counter.argumentId ∈ arguments.map (·.id) := by
  obtain ⟨draft, hdraft, id, rfl⟩ := mem_drawn h
  obtain ⟨argument, hmem, hdraft⟩ := List.mem_filterMap.mp hdraft
  exact List.mem_map.mpr ⟨argument, hmem, (counter_drafted hdraft id).2.symm⟩

/-- What is drafted of a fact is about a hypothesis. -/
lemma link_drafted {draft : Uuid → ReasoningEvidenceLink F}
    (h : draft ∈ hypotheses.flatMap fun hypothesis =>
      hypothesis.supportingFactIds.flatMap fun factId =>
        match (Dict.ofEntries (facts.map fun f => (f.id, f))).get factId with
        | none => []
        | some fact => (documentIds order fact).map
            (newLink hypothesis ((arguments.find? fun a => a.hypothesisId = hypothesis.id).map (·.id)) fact))
    (id : Uuid) : (draft id).id = id ∧ ∃ hypothesis ∈ hypotheses, (draft id).hypothesisId = some hypothesis.id := by
  obtain ⟨hypothesis, hmem, h⟩ := List.mem_flatMap.mp h
  obtain ⟨factId, -, h⟩ := List.mem_flatMap.mp h
  split at h
  · exact absurd h List.not_mem_nil
  · obtain ⟨documentId, -, rfl⟩ := List.mem_map.mp h
    exact ⟨rfl, hypothesis, hmem, rfl⟩

lemma nodup_linkEvidence : ((linkEvidence order next hypotheses arguments facts).map (·.id)).Nodup :=
  nodup_drawn fun _ hdraft id => (link_drafted hdraft id).1

/-- Evidence is linked to one of the hypotheses. -/
lemma mem_linkEvidence {link : ReasoningEvidenceLink F}
    (h : link ∈ linkEvidence order next hypotheses arguments facts) :
    ∃ hypothesis ∈ hypotheses, link.hypothesisId = some hypothesis.id := by
  obtain ⟨draft, hdraft, id, rfl⟩ := mem_drawn h
  exact (link_drafted hdraft id).2

end Named

end Tmis.LegalReasoning
