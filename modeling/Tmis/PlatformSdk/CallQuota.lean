import Mathlib.Algebra.Order.Ring.Rat
import Tmis.PlatformSdk.Sandbox
import Tmis.Lib.Run
import Tmis.Lib.CallWindows

/-!
# The quota of calls of the sandbox

Executions at times that do not go back, with whatever operations of the extension engine between them:
the times that are forgotten are too old to count at any later one.

* `Metered`, `Metered.step` — the sandbox, the last time that was read, and the calls that have reached a
  plugin;
* `Timely` — no time is before the last one;
* `Counted` — what is recorded for a plugin of a firm counts as the calls that have reached it;
* `SameFor`, `answers_filter` — what the calls of some plugins are answered depends on those calls alone;
* `callQuota_kept` — no minute has more calls of a plugin in it than the quota allows, what is refused
  uses nothing of it, and others do not either.
-/

namespace Tmis.PlatformSdk

open Tmis.Lib Tmis.Lib.SlidingWindow SandboxExecutor

/-- The sandbox, the last time that was read, and the calls that have reached a plugin, the last one
first. -/
structure Metered (Data : Type) where
  sandbox : SandboxExecutor Data
  clock : ℚ
  reached : List (ExtensionKey × Span ℚ) := []

namespace Metered

variable {Data : Type}

/-- A sandbox before its first call. -/
def start (extensions : ExtensionEngine) (implementations : List String) (quota : ResourceQuota)
    (clock : ℚ) : Metered Data where
  sandbox := { extensions, implementations, quota }
  clock

/-- A call has reached a plugin if there is one more invocation after it. -/
def step (m : Metered Data) (op : SandboxOperation Data) : Metered Data :=
  match op with
  | .execute firmId _ pluginId _ _ now later _ =>
      { sandbox := m.sandbox.step op
        clock := later
        reached :=
          if m.sandbox.invocations.length < (m.sandbox.step op).invocations.length then
            ((firmId, pluginId), ⟨now, later⟩) :: m.reached
          else m.reached }
  | _ => { m with sandbox := m.sandbox.step op }

/-- The calls that have reached a plugin for a firm. -/
def reachedOf (m : Metered Data) (key : ExtensionKey) : List (Span ℚ) :=
  (m.reached.filter (·.1 = key)).map Prod.snd

/-- The clock does not go back. -/
def Timely (m : Metered Data) : SandboxOperation Data → Prop
  | .execute _ _ _ _ _ now later _ => m.clock ≤ now ∧ now ≤ later
  | _ => True

instance (m : Metered Data) : DecidablePred (Timely m)
  | .execute _ _ _ _ _ now later _ => inferInstanceAs (Decidable (m.clock ≤ now ∧ now ≤ later))
  | .extension _ => isTrue trivial
  | .implement _ => isTrue trivial

/-- What a call of one of the plugins is answered. -/
def answer (asked : ExtensionKey → Bool) (m : Metered Data) :
    SandboxOperation Data → Option (Except Raised (SandboxExecutionResult Data))
  | .execute firmId actorId pluginId payload requiredPermission now later run =>
      if asked (firmId, pluginId) then
        some (m.sandbox.execute firmId actorId pluginId payload requiredPermission now later run).1
      else none
  | _ => none

/-- What the calls of some of the plugins are answered in a run. -/
def answers (asked : ExtensionKey → Bool) :
    Metered Data → List (SandboxOperation Data) → List (Except Raised (SandboxExecutionResult Data))
  | _, [] => []
  | m, op :: ops => (answer asked m op).toList ++ answers asked (m.step op) ops

/-- Not a call of another plugin than those. -/
def concerns (asked : ExtensionKey → Bool) : SandboxOperation Data → Bool
  | .execute firmId _ pluginId _ _ _ _ _ => asked (firmId, pluginId)
  | _ => true

end Metered

/-! ### What an execution leaves behind -/

section Recorded

variable {Data : Type} {s : SandboxExecutor Data} {firmId actorId pluginId : String} {payload : Data}
  {requiredPermission : Option ExtensionPermission} {now later : ℚ} {run : PluginRun Data}

/-- The times that are recorded for a plugin of a firm. -/
def SandboxExecutor.timestamps (s : SandboxExecutor Data) (key : ExtensionKey) : List ℚ :=
  (s.callTimestamps.get key).getD []

lemma recent_eq (key : ExtensionKey) (now : ℚ) :
    s.recent key now = (s.timestamps key).dropWhile (· < now - 60) := rfl

/-- What is forgotten at a check does not count at it. -/
lemma countP_recent (s : SandboxExecutor Data) (key : ExtensionKey) (now : ℚ) :
    (s.recent key now).countP (now - 60 ≤ ·) = (s.timestamps key).countP (now - 60 ≤ ·) :=
  countP_dropWhile le_rfl _

/-- What is forgotten at one check would be at every later one. -/
lemma recent_quotaExceeded (key key' : ExtensionKey) {now stop : ℚ} (h : now ≤ stop) :
    (s.quotaExceeded key now).2.recent key' stop = s.recent key' stop := by
  have htimes : (s.quotaExceeded key now).2.timestamps key' =
      if key' = key then s.recent key now else s.timestamps key' := by
    unfold timestamps quotaExceeded
    rw [Dict.get_set]
    split <;> rfl
  rw [recent_eq, htimes]
  split
  · rename_i hkey
    rw [hkey, recent_eq, recent_eq, dropWhile_dropWhile (sub_le_sub_right h 60)]
  · rfl

/-- **One execution.**  It leaves what the others read as it is, and either reaches the plugin and is
recorded, or is refused and forgets only what is too old. -/
lemma execute_cases (s : SandboxExecutor Data) (firmId actorId pluginId : String) (payload : Data)
    (requiredPermission : Option ExtensionPermission) (now later : ℚ) (run : PluginRun Data) :
    let s' := (s.execute firmId actorId pluginId payload requiredPermission now later run).2
    (s'.extensions = s.extensions ∧ s'.implementations = s.implementations ∧ s'.quota = s.quota) ∧
    ((Reaches s firmId pluginId requiredPermission now run ∧
        s'.invocations.length = s.invocations.length + 1 ∧
        ∀ key, s'.timestamps key =
          if key = (firmId, pluginId) then s.recent key now ++ [later] else s.timestamps key) ∨
      (¬ Reaches s firmId pluginId requiredPermission now run ∧ s'.invocations = s.invocations ∧
        ∀ key stop, now ≤ stop → s'.recent key stop = s.recent key stop)) := by
  by_cases hreaches : Reaches s firmId pluginId requiredPermission now run
  · have hinvoked : (s.execute firmId actorId pluginId payload requiredPermission now later run).2 =
        { (s.quotaExceeded (firmId, pluginId) now).2.recordCall (firmId, pluginId) later with
          invocations := s.invocations ++ [⟨firmId, actorId, pluginId, payload⟩] } := by
      obtain ⟨hpermits, hquota, hload, hconstructed⟩ := hreaches
      have hexceeded : (s.quotaExceeded (firmId, pluginId) now).1 = false := by
        rw [← Bool.not_eq_true, quotaExceeded_fst, not_not]
        exact hquota
      have hload' : (s.quotaExceeded (firmId, pluginId) now).2.load pluginId = .ok () := hload
      simp only [execute, hpermits, if_true, hexceeded, Bool.false_eq_true, if_false, hload', hconstructed]
      rfl
    dsimp only
    rw [hinvoked]
    refine ⟨⟨rfl, rfl, rfl⟩, Or.inl ⟨hreaches, by simp, fun key => ?_⟩⟩
    unfold timestamps recordCall quotaExceeded
    by_cases hkey : key = (firmId, pluginId)
    · simp [hkey]
    · simp [Dict.get_set_of_ne _ _ hkey, hkey]
  · have hrefused : (s.execute firmId actorId pluginId payload requiredPermission now later run).2 = s ∨
        (s.execute firmId actorId pluginId payload requiredPermission now later run).2 =
          (s.quotaExceeded (firmId, pluginId) now).2 := by
      unfold execute
      by_cases hpermits : s.permits firmId pluginId requiredPermission = true
      · rw [if_pos hpermits]
        dsimp only
        by_cases hexceeded : (s.quotaExceeded (firmId, pluginId) now).1 = true
        · rw [if_pos hexceeded]
          exact Or.inr rfl
        · rw [if_neg hexceeded]
          split
          · exact Or.inr rfl
          · rename_i hload
            have hquota := not_not.mp (mt quotaExceeded_fst.mpr hexceeded)
            rw [if_neg fun hconstructed => hreaches ⟨hpermits, hquota, hload, hconstructed⟩]
            exact Or.inr rfl
      · rw [if_neg hpermits]
        exact Or.inl rfl
    dsimp only
    rcases hrefused with hsame | hforgot
    · rw [hsame]
      exact ⟨⟨rfl, rfl, rfl⟩, Or.inr ⟨hreaches, rfl, fun key stop _ => rfl⟩⟩
    · rw [hforgot]
      exact ⟨⟨rfl, rfl, rfl⟩,
        Or.inr ⟨hreaches, rfl, fun key stop hstop => recent_quotaExceeded _ key hstop⟩⟩

end Recorded

/-! ### The bound -/

namespace Metered

section Bound

variable {Data : Type} {m : Metered Data} {quota : ResourceQuota}

/-- The quota stays, what is recorded for a plugin of a firm counts as the calls that have reached it, and
each of them was let in by the quota. -/
structure Counted (quota : ResourceQuota) (m : Metered Data) : Prop where
  kept : m.sandbox.quota = quota
  counted : ∀ key stop, m.clock ≤ stop → (m.sandbox.timestamps key).countP (stop - 60 ≤ ·) =
    (m.reachedOf key).countP fun call => stop - 60 ≤ call.recorded
  admitted : ∀ key, Admitted 60 quota.maxCallsPerMinute (m.reachedOf key)

lemma counted_start (extensions : ExtensionEngine) (implementations : List String) (clock : ℚ) :
    Counted quota (start extensions implementations quota clock : Metered Data) where
  kept := rfl
  counted _ _ _ := rfl
  admitted _ := trivial

/-- A call, with what it leaves behind. -/
lemma step_cases (m : Metered Data) (firmId actorId pluginId : String) (payload : Data)
    (requiredPermission : Option ExtensionPermission) (now later : ℚ) (run : PluginRun Data) :
    let m' := m.step (.execute firmId actorId pluginId payload requiredPermission now later run)
    (m'.sandbox.extensions = m.sandbox.extensions ∧
      m'.sandbox.implementations = m.sandbox.implementations ∧ m'.sandbox.quota = m.sandbox.quota) ∧
    ((Reaches m.sandbox firmId pluginId requiredPermission now run ∧
        (∀ key, m'.reachedOf key =
          if key = (firmId, pluginId) then ⟨now, later⟩ :: m.reachedOf key else m.reachedOf key) ∧
        ∀ key, m'.sandbox.timestamps key =
          if key = (firmId, pluginId) then m.sandbox.recent key now ++ [later]
          else m.sandbox.timestamps key) ∨
      (¬ Reaches m.sandbox firmId pluginId requiredPermission now run ∧ m'.reached = m.reached ∧
        ∀ key stop, now ≤ stop → m'.sandbox.recent key stop = m.sandbox.recent key stop)) := by
  intro m'
  obtain ⟨hothers, ⟨hreaches, hlength, htimes⟩ | ⟨hreaches, hinvocations, hrecent⟩⟩ :=
    execute_cases m.sandbox firmId actorId pluginId payload requiredPermission now later run
  · have hreached : m'.reached = ((firmId, pluginId), ⟨now, later⟩) :: m.reached :=
      if_pos (Nat.lt_of_lt_of_eq (Nat.lt_succ_self _) hlength.symm)
    refine ⟨hothers, Or.inl ⟨hreaches, fun key => ?_, htimes⟩⟩
    unfold reachedOf
    rw [hreached]
    by_cases hkey : (firmId, pluginId) = key
    · simp [hkey]
    · simp [hkey, Ne.symm hkey]
  · have hreached : m'.reached = m.reached := by
      refine if_neg ?_
      rw [show (m.sandbox.step (.execute firmId actorId pluginId payload requiredPermission now later
        run)).invocations = m.sandbox.invocations from hinvocations]
      exact lt_irrefl _
    exact ⟨hothers, Or.inr ⟨hreaches, hreached, hrecent⟩⟩

/-- **One operation.**  A call that reaches a plugin found fewer calls than the quota allows. -/
theorem Counted.step (h : Counted quota m) {op : SandboxOperation Data} (htimely : Timely m op) :
    Counted quota (m.step op) := by
  cases op with
  | extension op => exact ⟨h.kept, h.counted, h.admitted⟩
  | implement pluginId => exact ⟨h.kept, h.counted, h.admitted⟩
  | execute firmId actorId pluginId payload requiredPermission now later run =>
    obtain ⟨hnow, hlater⟩ := htimely
    obtain ⟨⟨-, -, hquota⟩, ⟨hreaches, hreached, htimes⟩ | ⟨-, hreached, hrecent⟩⟩ :=
      step_cases m firmId actorId pluginId payload requiredPermission now later run
    · refine ⟨hquota.trans h.kept, fun key stop hstop => ?_, fun key => ?_⟩
      · have hstop : later ≤ stop := hstop
        have hbefore := h.counted key stop (hnow.trans (hlater.trans hstop))
        rw [htimes, hreached]
        split
        · rw [List.countP_append, List.countP_singleton, recent_eq,
            countP_dropWhile (sub_le_sub_right (hlater.trans hstop) 60), hbefore, List.countP_cons]
        · exact hbefore
      · rw [hreached]
        split
        · rename_i hkey
          refine ⟨?_, h.admitted key⟩
          -- what is counted is among what was recent at the check
          have hfew : ((m.sandbox.recent key now).length : ℤ) < quota.maxCallsPerMinute := by
            rw [hkey, ← h.kept]
            exact hreaches.2.1
          have hcount := List.countP_le_length (p := fun time => decide (now - 60 ≤ time))
            (l := m.sandbox.recent key now)
          rw [countP_recent, h.counted key now hnow] at hcount
          exact lt_of_le_of_lt (Int.ofNat_le.mpr hcount) hfew
        · exact h.admitted key
    · refine ⟨hquota.trans h.kept, fun key stop hstop => ?_, fun key => ?_⟩
      · have hstop : later ≤ stop := hstop
        rw [← countP_recent, hrecent key stop (hlater.trans hstop), countP_recent, reachedOf, hreached]
        exact h.counted key stop (hnow.trans (hlater.trans hstop))
      · rw [reachedOf, hreached]
        exact h.admitted key

end Bound

/-! ### What calls depend on -/

section Depend

variable {Data : Type} {m m' : Metered Data} {asked : ExtensionKey → Bool}

/-- Two sandboxes that no call of the plugins asked about can tell from one another, from now on. -/
structure SameFor (asked : ExtensionKey → Bool) (m m' : Metered Data) : Prop where
  extensions : m.sandbox.extensions = m'.sandbox.extensions
  implementations : m.sandbox.implementations = m'.sandbox.implementations
  quota : m.sandbox.quota = m'.sandbox.quota
  recent : ∀ key, asked key = true → ∀ stop, m.clock ≤ stop →
    m.sandbox.recent key stop = m'.sandbox.recent key stop

lemma SameFor.refl (asked : ExtensionKey → Bool) (m : Metered Data) : SameFor asked m m :=
  ⟨rfl, rfl, rfl, fun _ _ _ _ => rfl⟩

lemma load_congr {s s' : SandboxExecutor Data} (hextensions : s.extensions = s'.extensions)
    (himplementations : s.implementations = s'.implementations) (pluginId : String) :
    s.load pluginId = s'.load pluginId := by
  unfold load
  rw [hextensions, himplementations]

lemma permits_congr {s s' : SandboxExecutor Data} (hextensions : s.extensions = s'.extensions)
    (firmId pluginId : String) (requiredPermission : Option ExtensionPermission) :
    s.permits firmId pluginId requiredPermission = s'.permits firmId pluginId requiredPermission := by
  unfold permits
  rw [hextensions]

/-- What an execution returns. -/
lemma execute_fst (s : SandboxExecutor Data) (firmId actorId pluginId : String) (payload : Data)
    (requiredPermission : Option ExtensionPermission) (now later : ℚ) (run : PluginRun Data) :
    (s.execute firmId actorId pluginId payload requiredPermission now later run).1 =
      if s.permits firmId pluginId requiredPermission then
        if s.quota.maxCallsPerMinute ≤ (s.recent (firmId, pluginId) now).length then
          failed pluginId "quota d'appels dépassé"
        else match s.load pluginId with
          | .error e => failed pluginId e.text
          | .ok () => finish pluginId run
      else failed pluginId "permission refusée" := by
  have hload : (s.quotaExceeded (firmId, pluginId) now).2.load pluginId = s.load pluginId := rfl
  unfold execute
  split
  · by_cases hquota : s.quota.maxCallsPerMinute ≤ (s.recent (firmId, pluginId) now).length
    · have hexceeded : (s.quotaExceeded (firmId, pluginId) now).1 = true := decide_eq_true hquota
      simp only [hexceeded, if_true, if_pos hquota]
    · have hexceeded : (s.quotaExceeded (firmId, pluginId) now).1 = false := decide_eq_false hquota
      simp only [hexceeded, Bool.false_eq_true, if_false, if_neg hquota, hload]
      cases s.load pluginId with
      | error e => rfl
      | ok _ =>
        dsimp only
        split <;> rfl
  · rfl

lemma SameFor.answer (h : SameFor asked m m') {op : SandboxOperation Data} (htimely : Timely m op) :
    answer asked m op = answer asked m' op := by
  cases op with
  | extension op => rfl
  | implement pluginId => rfl
  | execute firmId actorId pluginId payload requiredPermission now later run =>
    dsimp only [Metered.answer]
    split
    · rename_i hasked
      rw [execute_fst, execute_fst, permits_congr h.extensions, h.quota,
        h.recent _ hasked now htimely.1, load_congr h.extensions h.implementations]
    · rfl

/-- A call of one plugin leaves what is recent for the others. -/
lemma recent_step_of_ne {firmId actorId pluginId : String} {payload : Data}
    {requiredPermission : Option ExtensionPermission} {now later : ℚ} {run : PluginRun Data}
    {key : ExtensionKey} (hkey : key ≠ (firmId, pluginId)) {stop : ℚ} (hstop : now ≤ stop) :
    (m.step (.execute firmId actorId pluginId payload requiredPermission now later
      run)).sandbox.recent key stop = m.sandbox.recent key stop := by
  obtain ⟨-, ⟨-, -, htimes⟩ | ⟨-, -, hrecent⟩⟩ :=
    step_cases m firmId actorId pluginId payload requiredPermission now later run
  · rw [recent_eq, htimes, if_neg hkey, ← recent_eq]
  · exact hrecent key stop hstop

/-- A call that is not asked about makes no difference. -/
lemma SameFor.step_left (h : SameFor asked m m') {op : SandboxOperation Data} (htimely : Timely m op)
    (hother : concerns asked op = false) : SameFor asked (m.step op) m' := by
  cases op with
  | extension op => cases hother
  | implement pluginId => cases hother
  | execute firmId actorId pluginId payload requiredPermission now later run =>
    obtain ⟨⟨hextensions, himplementations, hquota⟩, -⟩ :=
      step_cases m firmId actorId pluginId payload requiredPermission now later run
    refine ⟨hextensions.trans h.extensions, himplementations.trans h.implementations,
      hquota.trans h.quota, fun key hasked stop hstop => ?_⟩
    have hnow : now ≤ stop := htimely.2.trans hstop
    have hne : key ≠ (firmId, pluginId) := by
      rintro rfl
      exact absurd (hasked.symm.trans hother) Bool.noConfusion
    rw [recent_step_of_ne hne hnow]
    exact h.recent key hasked stop (htimely.1.trans hnow)

/-- A call that is asked about is recorded in both, or in neither. -/
lemma SameFor.step (h : SameFor asked m m') {op : SandboxOperation Data} (htimely : Timely m op)
    (hasked : concerns asked op = true) : SameFor asked (m.step op) (m'.step op) := by
  cases op with
  | extension op =>
    exact ⟨congrArg (PlatformSdk.step · op) h.extensions, h.implementations, h.quota, h.recent⟩
  | implement pluginId =>
    exact ⟨h.extensions, congrArg (· ++ [pluginId]) h.implementations, h.quota, h.recent⟩
  | execute firmId actorId pluginId payload requiredPermission now later run =>
    have hsame := h.recent (firmId, pluginId) hasked
    have hreaches : Reaches m.sandbox firmId pluginId requiredPermission now run ↔
        Reaches m'.sandbox firmId pluginId requiredPermission now run := by
      unfold Reaches Loads
      rw [permits_congr h.extensions, h.quota, hsame now htimely.1,
        load_congr h.extensions h.implementations]
    obtain ⟨⟨hextensions, himplementations, hquota⟩, hleft⟩ :=
      step_cases m firmId actorId pluginId payload requiredPermission now later run
    obtain ⟨⟨hextensions', himplementations', hquota'⟩, hright⟩ :=
      step_cases m' firmId actorId pluginId payload requiredPermission now later run
    refine ⟨hextensions.trans (h.extensions.trans hextensions'.symm),
      himplementations.trans (h.implementations.trans himplementations'.symm),
      hquota.trans (h.quota.trans hquota'.symm), fun key hkey stop hstop => ?_⟩
    have hnow : now ≤ stop := htimely.2.trans hstop
    by_cases heq : key = (firmId, pluginId)
    · subst heq
      rcases hleft with ⟨hreached, -, htimes⟩ | ⟨hrefused, -, hrecent⟩
      · rcases hright with ⟨-, -, htimes'⟩ | ⟨hrefused, -, -⟩
        · rw [recent_eq, recent_eq, htimes, htimes', if_pos rfl, if_pos rfl, hsame now htimely.1]
        · exact absurd (hreaches.mp hreached) hrefused
      · rcases hright with ⟨hreached, -, -⟩ | ⟨-, -, hrecent'⟩
        · exact absurd (hreaches.mpr hreached) hrefused
        · rw [hrecent _ stop hnow, hrecent' _ stop hnow, hsame stop (htimely.1.trans hnow)]
    · rw [recent_step_of_ne heq hnow, recent_step_of_ne heq hnow]
      exact h.recent key hkey stop (htimely.1.trans hnow)

/-- **Independence.**  What the calls of some plugins are answered depends on those calls alone. -/
theorem SameFor.answers_filter (h : SameFor asked m m') {ops : List (SandboxOperation Data)}
    (htimely : Along Metered.step Timely m ops) :
    answers asked m ops = answers asked m' (ops.filter (concerns asked)) := by
  induction ops generalizing m m' with
  | nil => rfl
  | cons op ops ih =>
    cases hasked : concerns asked op with
    | true =>
      rw [List.filter_cons_of_pos hasked, answers, answers, h.answer htimely.1,
        ih (h.step htimely.1 hasked) htimely.2]
    | false =>
      have hnone : Metered.answer asked m op = none := by
        cases op with
        | execute firmId actorId pluginId payload requiredPermission now later run =>
          exact if_neg (Bool.eq_false_iff.mp hasked)
        | _ => cases hasked
      rw [List.filter_cons_of_neg (Bool.eq_false_iff.mp hasked), answers, hnone, Option.toList_none,
        List.nil_append, ih (h.step_left htimely.1 hasked) htimely.2]

end Depend

/-! ### The quota -/

section Quota

variable {Data : Type}

/-- The call is not let through to the plugin. -/
def Refused (m : Metered Data) : SandboxOperation Data → Prop
  | .execute firmId actorId pluginId payload requiredPermission now later run =>
      (m.step (.execute firmId actorId pluginId payload requiredPermission now later
        run)).sandbox.invocations = m.sandbox.invocations
  | _ => False

/-- A call that is refused makes no difference to any later one. -/
lemma sameFor_of_refused {m : Metered Data} {op : SandboxOperation Data} (hrefused : Refused m op)
    (htimely : Timely m op) : SameFor (fun _ => true) (m.step op) m := by
  cases op with
  | extension op => cases hrefused
  | implement pluginId => cases hrefused
  | execute firmId actorId pluginId payload requiredPermission now later run =>
    obtain ⟨hothers, ⟨-, hlength, -⟩ | ⟨-, -, hrecent⟩⟩ :=
      execute_cases m.sandbox firmId actorId pluginId payload requiredPermission now later run
    · have hsame : (m.sandbox.execute firmId actorId pluginId payload requiredPermission now later
          run).2.invocations = m.sandbox.invocations := hrefused
      rw [hsame] at hlength
      omega
    · refine ⟨hothers.1, hothers.2.1, hothers.2.2, fun key _ stop hstop => ?_⟩
      exact hrecent key stop (htimely.2.trans hstop)

/-- **The quota of calls.**  However executions and operations of the extension engine follow each other,
at times that do not go back: no minute has more calls in it that have reached a plugin for a firm than
the quota allows, a call that is refused makes no difference to what any later one is answered, and what
the calls of a plugin for a firm are answered is what they would be without the calls of others. -/
theorem callQuota_kept (extensions : ExtensionEngine) (implementations : List String)
    (quota : ResourceQuota) (clock : ℚ) (ops : List (SandboxOperation Data))
    (htimely : Along step Timely (start extensions implementations quota clock) ops) :
    (∀ key stop, (((run step (start extensions implementations quota clock) ops).reachedOf key).countP
      (fun call => Overlaps 60 stop call) : ℤ) ≤ max quota.maxCallsPerMinute 0) ∧
    (∀ pre call post, ops = pre ++ call :: post →
      Refused (run step (start extensions implementations quota clock) pre) call →
      answers (fun _ => true)
          ((run step (start extensions implementations quota clock) pre).step call) post =
        answers (fun _ => true) (run step (start extensions implementations quota clock) pre) post) ∧
    ∀ key, answers (· = key) (start extensions implementations quota clock) ops =
      answers (· = key) (start extensions implementations quota clock)
        (ops.filter (concerns (· = key))) := by
  refine ⟨fun key stop => ?_, ?_, fun key => (SameFor.refl _ _).answers_filter htimely⟩
  · have hcounted : Counted quota (run step (start extensions implementations quota clock) ops) :=
      htimely.inv (counted_start extensions implementations clock) fun _ _ h htimely => h.step htimely
    exact countP_overlaps_le (hcounted.admitted key) stop
  · rintro pre call post rfl hrefused
    obtain ⟨-, hcall, hpost⟩ := (along_append _ _ _).mp htimely
    rw [(sameFor_of_refused hrefused hcall).answers_filter hpost]
    congr 1
    refine List.filter_eq_self.mpr fun op _ => ?_
    cases op <;> rfl

/-- A plugin is published and implemented, and executed twice for a firm. -/
def executedTwice : List (SandboxOperation String) :=
  [.extension (.register
      { id := "workflow-validation", name := "Workflow Validation", version := "1.0.0",
        pluginType := .workflow, author := "TMIS Labs", description := "Workflow de validation",
        license := "MIT", status := .published }),
    .implement "workflow-validation",
    .execute "firm-a" "avocat1" "workflow-validation" "500" none 0 0 (.returned "auto-approve"),
    .execute "firm-a" "avocat1" "workflow-validation" "900" none 59 59 (.returned "auto-approve")]

theorem callQuota_kept_executedTwice :
    ((((run step (start {} [] ⟨1⟩ 0) executedTwice).reachedOf
      ("firm-a", "workflow-validation")).countP (fun call => Overlaps 60 60 call) : ℕ) : ℤ) ≤ max 1 0 :=
  (callQuota_kept {} [] ⟨1⟩ 0 executedTwice (by decide +kernel)).1 _ 60

/-- Not even no call is at most a negative number of them. -/
theorem negativeCallQuota_exceeded :
    ¬ ∀ (extensions : ExtensionEngine) (implementations : List String) (quota : ResourceQuota) (clock : ℚ)
      (ops : List (SandboxOperation Unit)),
      Along step Timely (start extensions implementations quota clock) ops → ∀ key stop,
      (((run step (start extensions implementations quota clock) ops).reachedOf key).countP
        (fun call => Overlaps 60 stop call) : ℤ) ≤ quota.maxCallsPerMinute := by
  intro h
  have hnone := h {} [] ⟨-1⟩ 0 [] trivial ("firm-a", "workflow-validation") 0
  exact absurd hnone (by decide)

end Quota

end Metered

end Tmis.PlatformSdk
