import Tmis.Lib.Acyclic
import Tmis.PlatformSdk.Validation

/-!
# Circular dependencies

The dependency check against the graph of the registered manifests.

* `DependsOn` — a registered plugin declares a dependency;
* `assertNoCycle_eq_ok_iff` — the search does not raise iff it is `Clear`;
* `Circular`, `dependencyIssue_cases` — what is reported of one dependency;
* `checkDependencies_reports` — what is reported of a manifest.
-/

namespace Tmis.PlatformSdk

open Tmis.Lib PluginValidator Relation

/-- The plugin is registered, and declares the dependency. -/
def DependsOn (registry : PluginRegistry) (id dependencyId : String) : Prop :=
  ∃ manifest, registry.get id = some manifest ∧ dependencyId ∈ manifest.dependencies

variable {registry : PluginRegistry} {rootId currentId : String} {visited : List String}

/-- Only finitely many plugins are registered. -/
lemma finite_dependsOn (registry : PluginRegistry) :
    {id | ∃ dependencyId, DependsOn registry id dependencyId}.Finite := by
  refine registry.entries.finite_keys.subset ?_
  rintro id ⟨dependencyId, manifest, hget, -⟩
  exact ⟨manifest, hget⟩

/-- What the search does at one plugin. -/
lemma assertNoCycle_of_get {manifest : PluginManifest} (hfresh : currentId ∉ visited)
    (hget : registry.get currentId = some manifest) :
    assertNoCycle registry rootId currentId visited = .ok () ↔
      ∀ dependencyId ∈ manifest.dependencies, dependencyId ≠ rootId ∧
        assertNoCycle registry rootId dependencyId (currentId :: visited) = .ok () := by
  rw [assertNoCycle, dif_neg hfresh]
  split
  · rename_i hnone
    rw [hget] at hnone
    cases hnone
  · rename_i manifest' hget'
    rw [hget] at hget'
    cases hget'
    rw [forM_eq_ok]
    refine forall₂_congr fun dependencyId _ => ?_
    by_cases hroot : dependencyId = rootId
    · simp [hroot]
    · simp [hroot]

/-- **The search** does not raise iff it meets no plugin of its path, nor the root. -/
theorem assertNoCycle_eq_ok_iff :
    assertNoCycle registry rootId currentId visited = .ok () ↔
      Clear (DependsOn registry) rootId currentId visited := by
  rw [clear_cons_iff]
  induction currentId, visited using assertNoCycle.induct registry with
  | case1 currentId visited hvisited =>
    rw [assertNoCycle, dif_pos hvisited]
    simp [hvisited]
  | case2 currentId visited hfresh hnone =>
    have hnothing : ∀ dependencyId, ¬ DependsOn registry currentId dependencyId := by
      rintro dependencyId ⟨manifest, hget, -⟩
      rw [hnone] at hget
      cases hget
    rw [assertNoCycle, dif_neg hfresh]
    split
    · exact iff_of_true rfl ⟨hfresh, fun dependencyId h => absurd h (hnothing dependencyId)⟩
    · rename_i hget
      rw [hnone] at hget
      cases hget
  | case3 currentId visited hfresh manifest hget ih =>
    have hdepends : ∀ dependencyId, DependsOn registry currentId dependencyId ↔
        dependencyId ∈ manifest.dependencies := by
      intro dependencyId
      constructor
      · rintro ⟨manifest', hget', hmem⟩
        rw [hget] at hget'
        cases hget'
        exact hmem
      · exact fun hmem => ⟨manifest, hget, hmem⟩
    rw [assertNoCycle_of_get hfresh hget]
    constructor
    · intro h
      refine ⟨hfresh, fun dependencyId hdependency => ?_⟩
      obtain ⟨hne, hok⟩ := h dependencyId ((hdepends dependencyId).mp hdependency)
      exact ⟨hne, clear_cons_iff.mpr ((ih dependencyId).mp hok)⟩
    · rintro ⟨-, hnext⟩ dependencyId hmem
      obtain ⟨hne, hclear⟩ := hnext dependencyId ((hdepends dependencyId).mpr hmem)
      exact ⟨hne, (ih dependencyId).mpr (clear_cons_iff.mp hclear)⟩

/-- The search raises nothing but circular dependencies. -/
lemma assertNoCycle_error {e : PyException}
    (h : assertNoCycle registry rootId currentId visited = .error e) :
    ∃ id, e = circularDependencyError id := by
  induction currentId, visited using assertNoCycle.induct registry with
  | case1 currentId visited hvisited =>
    rw [assertNoCycle, dif_pos hvisited] at h
    cases h
    exact ⟨currentId, rfl⟩
  | case2 currentId visited hfresh hnone =>
    rw [assertNoCycle, dif_neg hfresh] at h
    split at h
    · cases h
    · rename_i hget
      rw [hnone] at hget
      cases hget
  | case3 currentId visited hfresh manifest hget ih =>
    rw [assertNoCycle, dif_neg hfresh] at h
    split at h
    · cases h
    · obtain ⟨dependencyId, -, hraised⟩ := of_forM_error h
      by_cases hroot : dependencyId = rootId
      · rw [if_pos hroot] at hraised
        cases hraised
        exact ⟨rootId, rfl⟩
      · rw [if_neg hroot] at hraised
        exact ih dependencyId hraised

/-! ### What is reported -/

/-- The dependency is registered, and a way from it leads to the manifest, or into a cycle. -/
def Circular (registry : PluginRegistry) (manifest : PluginManifest) (dependencyId : String) : Prop :=
  dependencyId ≠ manifest.id ∧ registry.get dependencyId ≠ none ∧
    LeadsBack (DependsOn registry) manifest.id dependencyId

variable {manifest : PluginManifest} {dependencyId id : String}

/-- The texts begin alike, and go on differently. -/
lemma issues_ne : selfDependency id ≠ missingDependency dependencyId ∧
    selfDependency id ≠ circularDependency dependencyId ∧
    missingDependency id ≠ circularDependency dependencyId := by
  have hmessage {issue issue' : ValidationIssue}
      (h : issue.message.toList[11]? ≠ issue'.message.toList[11]?) : issue ≠ issue' :=
    fun heq => h (by rw [heq])
  refine ⟨hmessage ?_, hmessage ?_, hmessage ?_⟩ <;>
    simp [selfDependency, missingDependency, circularDependency]

lemma missingDependency_inj (h : missingDependency id = missingDependency dependencyId) :
    id = dependencyId := by
  have hlist := congrArg (fun issue : ValidationIssue => issue.message.toList) h
  simp only [missingDependency, String.toList_append, List.append_cancel_left_eq] at hlist
  exact String.toList_injective hlist

lemma selfDependency_inj (h : selfDependency id = selfDependency dependencyId) : id = dependencyId := by
  have hlist := congrArg (fun issue : ValidationIssue => issue.message.toList) h
  simp only [selfDependency, String.toList_append, List.append_cancel_left_eq] at hlist
  exact String.toList_injective hlist

/-- **One dependency.**  It is the manifest's own, or missing, or circular, or there is nothing to report
of it. -/
theorem dependencyIssue_cases (registry : PluginRegistry) (manifest : PluginManifest)
    (dependencyId : String) :
    (dependencyId = manifest.id ∧
      dependencyIssue registry manifest dependencyId = some (selfDependency dependencyId)) ∨
    ((dependencyId ≠ manifest.id ∧ registry.get dependencyId = none) ∧
      dependencyIssue registry manifest dependencyId = some (missingDependency dependencyId)) ∨
    (Circular registry manifest dependencyId ∧
      ∃ id, dependencyIssue registry manifest dependencyId = some (circularDependency id)) ∨
    ((dependencyId ≠ manifest.id ∧ registry.get dependencyId ≠ none ∧
      ¬ LeadsBack (DependsOn registry) manifest.id dependencyId) ∧
      dependencyIssue registry manifest dependencyId = none) := by
  unfold dependencyIssue
  by_cases hself : dependencyId = manifest.id
  · rw [if_pos hself]
    exact Or.inl ⟨hself, rfl⟩
  by_cases hmissing : registry.get dependencyId = none
  · rw [if_neg hself, if_pos hmissing]
    exact Or.inr (Or.inl ⟨⟨hself, hmissing⟩, rfl⟩)
  rw [if_neg hself, if_neg hmissing]
  have hclear : assertNoCycle registry manifest.id dependencyId [manifest.id] = .ok () ↔
      ¬ LeadsBack (DependsOn registry) manifest.id dependencyId :=
    assertNoCycle_eq_ok_iff.trans (clear_iff (finite_dependsOn registry) hself)
  cases hsearch : assertNoCycle registry manifest.id dependencyId [manifest.id] with
  | ok _ => exact Or.inr (Or.inr (Or.inr ⟨⟨hself, hmissing, hclear.mp hsearch⟩, rfl⟩))
  | error e =>
    obtain ⟨id, rfl⟩ := assertNoCycle_error hsearch
    have hback : LeadsBack (DependsOn registry) manifest.id dependencyId := by
      by_contra hnot
      rw [hclear.mpr hnot] at hsearch
      cases hsearch
    exact Or.inr (Or.inr (Or.inl ⟨⟨hself, hmissing, hback⟩, id, rfl⟩))

/-- What is reported is a circular dependency iff the dependency is one. -/
lemma circularIssue_iff :
    (∃ id, dependencyIssue registry manifest dependencyId = some (circularDependency id)) ↔
      Circular registry manifest dependencyId := by
  rcases dependencyIssue_cases registry manifest dependencyId with
    ⟨hself, hissue⟩ | ⟨⟨-, hnone⟩, hissue⟩ | ⟨hback, hissue⟩ | ⟨⟨-, -, hnot⟩, hissue⟩
  · refine iff_of_false ?_ fun h => h.1 hself
    rintro ⟨id, hid⟩
    exact issues_ne.2.1 (Option.some.inj (hissue.symm.trans hid))
  · refine iff_of_false ?_ fun h => h.2.1 hnone
    rintro ⟨id, hid⟩
    exact issues_ne.2.2 (Option.some.inj (hissue.symm.trans hid))
  · exact iff_of_true hissue hback
  · refine iff_of_false ?_ fun h => hnot h.2.2
    rintro ⟨id, hid⟩
    cases hissue.symm.trans hid

lemma missingIssue_iff :
    dependencyIssue registry manifest dependencyId = some (missingDependency id) ↔
      dependencyId = id ∧ dependencyId ≠ manifest.id ∧ registry.get dependencyId = none := by
  rcases dependencyIssue_cases registry manifest dependencyId with
    ⟨hself, hissue⟩ | ⟨hnone, hissue⟩ | ⟨⟨-, hfound, -⟩, id', hissue⟩ | ⟨⟨-, hfound, -⟩, hissue⟩
  · rw [hissue]
    exact iff_of_false (fun h => issues_ne.1 (Option.some.inj h)) fun h => h.2.1 hself
  · rw [hissue]
    constructor
    · exact fun h => ⟨missingDependency_inj (Option.some.inj h), hnone⟩
    · rintro ⟨rfl, -⟩
      rfl
  · rw [hissue]
    exact iff_of_false (fun h => issues_ne.2.2 (Option.some.inj h).symm) fun h => hfound h.2.2
  · rw [hissue]
    exact iff_of_false (fun h => nomatch h) fun h => hfound h.2.2

lemma selfIssue_iff :
    dependencyIssue registry manifest dependencyId = some (selfDependency id) ↔
      dependencyId = id ∧ dependencyId = manifest.id := by
  rcases dependencyIssue_cases registry manifest dependencyId with
    ⟨hown, hissue⟩ | ⟨⟨hne, -⟩, hissue⟩ | ⟨⟨hne, -⟩, id', hissue⟩ | ⟨⟨hne, -⟩, hissue⟩
  · rw [hissue]
    constructor
    · exact fun h => ⟨selfDependency_inj (Option.some.inj h), hown⟩
    · rintro ⟨rfl, -⟩
      rfl
  · rw [hissue]
    exact iff_of_false (fun h => issues_ne.1 (Option.some.inj h).symm) fun h => hne h.2
  · rw [hissue]
    exact iff_of_false (fun h => issues_ne.2.1 (Option.some.inj h).symm) fun h => hne h.2
  · rw [hissue]
    exact iff_of_false (fun h => nomatch h) fun h => hne h.2

/-- **The dependency check.**  Of a declared dependency that is registered and is not the manifest, a
circular dependency is reported iff a way from it leads to the manifest or into a cycle; missing
dependencies are the declared ones that are neither registered nor the manifest, and a dependency on
itself is reported iff the manifest declares itself. -/
theorem checkDependencies_reports (registry : PluginRegistry) (manifest : PluginManifest) :
    (∀ dependencyId ∈ manifest.dependencies, dependencyId ≠ manifest.id →
      registry.get dependencyId ≠ none →
      ((∃ id, dependencyIssue registry manifest dependencyId = some (circularDependency id)) ↔
        LeadsBack (DependsOn registry) manifest.id dependencyId)) ∧
    ((∃ id, circularDependency id ∈ checkDependencies registry manifest) ↔
      ∃ dependencyId ∈ manifest.dependencies, Circular registry manifest dependencyId) ∧
    (∀ dependencyId, missingDependency dependencyId ∈ checkDependencies registry manifest ↔
      dependencyId ∈ manifest.dependencies ∧ dependencyId ≠ manifest.id ∧
        registry.get dependencyId = none) ∧
    ∀ dependencyId, selfDependency dependencyId ∈ checkDependencies registry manifest ↔
      dependencyId ∈ manifest.dependencies ∧ dependencyId = manifest.id := by
  refine ⟨fun dependencyId _ hne hfound => ?_, ?_, fun dependencyId => ?_, fun dependencyId => ?_⟩
  · rw [circularIssue_iff]
    exact ⟨fun h => h.2.2, fun h => ⟨hne, hfound, h⟩⟩
  · simp only [checkDependencies, List.mem_filterMap]
    constructor
    · rintro ⟨id, dependencyId, hmem, hissue⟩
      exact ⟨dependencyId, hmem, circularIssue_iff.mp ⟨id, hissue⟩⟩
    · rintro ⟨dependencyId, hmem, hback⟩
      obtain ⟨id, hissue⟩ := circularIssue_iff.mpr hback
      exact ⟨id, dependencyId, hmem, hissue⟩
  · simp only [checkDependencies, List.mem_filterMap, missingIssue_iff]
    constructor
    · rintro ⟨_, hmem, rfl, hne, hnone⟩
      exact ⟨hmem, hne, hnone⟩
    · rintro ⟨hmem, hne, hnone⟩
      exact ⟨dependencyId, hmem, rfl, hne, hnone⟩
  · simp only [checkDependencies, List.mem_filterMap, selfIssue_iff]
    constructor
    · rintro ⟨_, hmem, rfl, hown⟩
      exact ⟨hmem, hown⟩
    · rintro ⟨hmem, hown⟩
      exact ⟨dependencyId, hmem, rfl, hown⟩

/-- A manifest that is not registered and declares itself. -/
def selfDeclared : PluginManifest :=
  { id := "p1", name := "Plugin 1", version := "1.0.0", pluginType := .agent, author := "a",
    description := "...", license := "MIT", dependencies := ["p1"] }

/-- It is not registered, and not reported as missing. -/
theorem selfDeclared_not_missing :
    ¬ ∀ (registry : PluginRegistry) (manifest : PluginManifest),
      ∀ dependencyId ∈ manifest.dependencies,
        (missingDependency dependencyId ∈ checkDependencies registry manifest ↔
          registry.get dependencyId = none) := by
  intro h
  have hreported := (h ∅ selfDeclared "p1" (List.mem_singleton_self _)).mpr rfl
  exact absurd hreported (by decide +kernel)

end Tmis.PlatformSdk
