import Tmis.Lib.Acyclic
import Tmis.Lib.Calls
import Tmis.WorkflowAutomation.ConditionEngine

/-!
# Named conditions

A `REF` stands for the condition that is registered under its name, which may be made of further ones.

* `Mentions`, `Refers` — the names a condition refers to, and those that lead from one to another;
* `expandWithin` — the condition with every `REF` replaced by the expression it names;
* `evaluate_expand` — it is evaluated as the condition itself is; `not_registered`, what it still refers to is
  not registered;
* `Grounded`, `expands_iff` — it is there iff no name that the condition leads to leads back to itself;
* `references_iff` — so it is with `evaluate`; `refers_to_itself`, a name that does.
-/

namespace Tmis.WorkflowAutomation

open Tmis.Lib Relation

/-- The conditions that a condition is made of. -/
def Condition.parts (condition : Condition) : List Condition :=
  match condition.kind with
  | .and | .or => condition.children
  | .not => condition.operand.toList
  | _ => []

/-- The names that a condition refers to, however deep in it. -/
inductive Mentions : Condition → String → Prop
  | ref {condition : Condition} {name : String} : condition.kind = .ref → condition.refName = some name →
      Mentions condition name
  | part {condition part : Condition} {name : String} : part ∈ condition.parts → Mentions part name →
      Mentions condition name

namespace ConditionEngine

/-- The condition that is registered under a name refers to another name. -/
def Refers (engine : ConditionEngine) (a b : String) : Prop :=
  ∃ condition, engine.library.get a = some condition ∧ Mentions condition b

/-- No name that the condition leads to leads back to itself. -/
def Grounded (engine : ConditionEngine) (condition : Condition) : Prop :=
  ∀ first name, Mentions condition first → ReflTransGen engine.Refers first name → ¬ TransGen engine.Refers name name

/-- The condition with every `REF` replaced by the expression it names, with `depth` calls left on the stack.
A `REF` to a name that is not registered stays, and raises when it is evaluated. -/
def expandWithin (engine : ConditionEngine) : ℕ → Condition → Except PyException Condition
  | 0, _ => .error recursionError
  | depth + 1, condition =>
    match condition.kind with
    | .and | .or => do return { condition with children := ← condition.children.mapM (engine.expandWithin depth) }
    | .not =>
      match condition.operand with
      | none => .ok condition
      | some operand => do return { condition with operand := some (← engine.expandWithin depth operand) }
    | .ref =>
      match condition.refName with
      | none => .ok condition
      | some refName =>
        match engine.library.get refName with
        | none => .ok condition
        | some referenced => engine.expandWithin depth referenced
    | .compare | .roleIs | .dateBefore | .dateAfter => .ok condition

/-- Both calls come to the same end, and the stack is not used up. -/
def Agree {X : Type} (call call' : Except PyException X) : Prop := call = call' ∧ call ≠ .error recursionError

/-- With a stack that is deep enough, the condition is evaluated as the one with every `REF` replaced. -/
def ReferencesSound (engine : ConditionEngine) (condition : Condition) : Prop :=
  ∃ depth expanded, engine.expandWithin depth condition = .ok expanded ∧
    ∀ interpreter context, depth ≤ interpreter.recursionLimit →
      Agree (engine.evaluate interpreter condition context) (engine.evaluate interpreter expanded context)

/-! ### One step of the expansion -/

section Expanded

variable {engine : ConditionEngine} {condition expanded : Condition} {depth depth' : ℕ}

/-- A condition in which nothing is replaced. -/
inductive Kept (engine : ConditionEngine) : Condition → Prop
  | noOperand {condition : Condition} (hkind : condition.kind = .not) (hoperand : condition.operand = none) :
      Kept engine condition
  | unknown {condition : Condition} (hkind : condition.kind = .ref)
      (hname : ∀ name, condition.refName = some name → engine.library.get name = none) : Kept engine condition
  | leaf {condition : Condition} (hkind : condition.kind ∉ [.and, .or, .not, .ref]) : Kept engine condition

/-- What a condition is expanded to, where `P` tells what those that it is made of are expanded to. -/
inductive Expanded (engine : ConditionEngine) (P : Condition → Condition → Prop) : Condition → Condition → Prop
  | children {condition : Condition} {children' : List Condition} (hkind : condition.kind ∈ [.and, .or])
      (hchildren : List.Forall₂ P condition.children children') :
      Expanded engine P condition { condition with children := children' }
  | operand {condition operand operand' : Condition} (hkind : condition.kind = .not)
      (hoperand : condition.operand = some operand) (hexpand : P operand operand') :
      Expanded engine P condition { condition with operand := some operand' }
  | ref {condition referenced expanded : Condition} {refName : String} (hkind : condition.kind = .ref)
      (hname : condition.refName = some refName) (hget : engine.library.get refName = some referenced)
      (hexpand : P referenced expanded) : Expanded engine P condition expanded
  | kept {condition : Condition} (hkept : engine.Kept condition) : Expanded engine P condition condition

lemma Expanded.mono {P Q : Condition → Condition → Prop} (h : engine.Expanded P condition expanded)
    (hPQ : ∀ c c', P c c' → Q c c') : engine.Expanded Q condition expanded := by
  cases h with
  | children hkind hchildren => exact .children hkind (hchildren.imp hPQ)
  | operand hkind hoperand hexpand => exact .operand hkind hoperand (hPQ _ _ hexpand)
  | ref hkind hname hget hexpand => exact .ref hkind hname hget (hPQ _ _ hexpand)
  | kept hkept => exact .kept hkept

lemma expanded_of_expandWithin (h : engine.expandWithin (depth + 1) condition = .ok expanded) :
    engine.Expanded (fun c c' => engine.expandWithin depth c = .ok c') condition expanded := by
  unfold expandWithin at h
  split at h
  case h_1 hkind | h_2 hkind =>
    obtain ⟨children', hmap, hrest⟩ := bind_eq_ok.mp h
    obtain rfl := pure_eq_ok.mp hrest
    exact .children (by rw [hkind]; decide) (mapM_eq_ok.mp hmap)
  case h_3 hkind =>
    split at h
    case h_1 hoperand =>
      obtain rfl := Except.ok.inj h
      exact .kept (.noOperand hkind hoperand)
    case h_2 operand hoperand =>
      obtain ⟨operand', hexpand, hrest⟩ := bind_eq_ok.mp h
      obtain rfl := pure_eq_ok.mp hrest
      exact .operand hkind hoperand hexpand
  case h_4 hkind =>
    split at h
    case h_1 hname =>
      obtain rfl := Except.ok.inj h
      refine .kept (.unknown hkind fun name hsome => ?_)
      rw [hname] at hsome
      cases hsome
    case h_2 refName hname =>
      split at h
      case h_1 hget =>
        obtain rfl := Except.ok.inj h
        refine .kept (.unknown hkind fun name hsome => ?_)
        rw [hname] at hsome
        obtain rfl := Option.some.inj hsome
        exact hget
      case h_2 referenced hget => exact .ref hkind hname hget h
  all_goals
    rename_i hkind
    obtain rfl := Except.ok.inj h
    exact .kept (.leaf (by rw [hkind]; decide))

lemma expandWithin_of_expanded
    (h : engine.Expanded (fun c c' => engine.expandWithin depth c = .ok c') condition expanded) :
    engine.expandWithin (depth + 1) condition = .ok expanded := by
  unfold expandWithin
  cases h with
  | children hkind hchildren =>
    have hmap := mapM_eq_ok.mpr hchildren
    cases hcase : condition.kind with
    | and | or => exact bind_eq_ok.mpr ⟨_, hmap, rfl⟩
    | _ =>
      rw [hcase] at hkind
      exact absurd hkind (by decide)
  | operand hkind hoperand hexpand =>
    simp only [hkind, hoperand]
    exact bind_eq_ok.mpr ⟨_, hexpand, rfl⟩
  | ref hkind hname hget hexpand =>
    simp only [hkind, hname, hget]
    exact hexpand
  | kept hkept =>
    cases hkept with
    | noOperand hkind hoperand => simp only [hkind, hoperand]
    | unknown hkind hname =>
      simp only [hkind]
      split
      · rfl
      · rename_i name hsome
        simp only [hname name hsome]
    | leaf hkind => split <;> simp_all

/-- **One step of the expansion.** -/
lemma expandWithin_succ : engine.expandWithin (depth + 1) condition = .ok expanded ↔
    engine.Expanded (fun c c' => engine.expandWithin depth c = .ok c') condition expanded :=
  ⟨expanded_of_expandWithin, expandWithin_of_expanded⟩

end Expanded

/-! ### Evaluation -/

section Agree

variable {X Y : Type}

lemma agree_ok (x : X) : Agree (.ok x) (.ok x) := ⟨rfl, nofun⟩

lemma Agree.bind {call call' : Except PyException X} {next next' : X → Except PyException Y}
    (h : Agree call call') (hnext : ∀ x, Agree (next x) (next' x)) : Agree (call >>= next) (call' >>= next') := by
  obtain ⟨rfl, hne⟩ := h
  cases call with
  | error e =>
    refine ⟨rfl, fun he => hne ?_⟩
    cases he
    rfl
  | ok x => exact hnext x

lemma agree_allM {f g : Condition → Except PyException Bool} {xs ys : List Condition}
    (h : List.Forall₂ (fun x y => Agree (f x) (g y)) xs ys) : Agree (xs.allM f) (ys.allM g) := by
  induction h with
  | nil => exact agree_ok true
  | cons hxy _ ih =>
    refine hxy.bind fun b => ?_
    cases b with
    | true => exact ih
    | false => exact agree_ok false

lemma agree_anyM {f g : Condition → Except PyException Bool} {xs ys : List Condition}
    (h : List.Forall₂ (fun x y => Agree (f x) (g y)) xs ys) : Agree (xs.anyM f) (ys.anyM g) := by
  induction h with
  | nil => exact agree_ok false
  | cons hxy _ ih =>
    refine hxy.bind fun b => ?_
    cases b with
    | true => exact agree_ok true
    | false => exact ih

end Agree

section Evaluation

variable {engine : ConditionEngine} {float : PyFloat} {context : Context}

lemma agree_assertionError : Agree (.error assertionError : Except PyException Bool) (.error assertionError) :=
  ⟨rfl, fun h => absurd (Except.error.inj h) (by decide)⟩

lemma agree_compare (condition : Condition) :
    Agree (evaluateCompare float condition context) (evaluateCompare float condition context) := by
  unfold evaluateCompare
  split
  · split
    · exact agree_ok false
    · dsimp only
      split <;> exact agree_ok _
  · exact agree_assertionError

lemma agree_parseDate (text : String) : Agree (parseDate text) (parseDate text) := by
  unfold parseDate
  split
  · exact agree_ok _
  · refine ⟨rfl, fun h => absurd (congrArg PyException.className (Except.error.inj h)) ?_⟩
    show "ValueError" ≠ "RecursionError"
    decide

lemma agree_date (condition : Condition) (before : Bool) :
    Agree (evaluateDate condition context before) (evaluateDate condition context before) := by
  unfold evaluateDate
  split
  · split
    · exact agree_ok false
    · exact (agree_parseDate _).bind fun _ => (agree_parseDate _).bind fun _ => agree_ok _
  · exact agree_assertionError

/-- What nothing is replaced in is evaluated with any stack. -/
lemma agree_kept {condition : Condition} (h : engine.Kept condition) (d d' : ℕ) :
    Agree (engine.evaluateWithin float (d + 1) condition context)
      (engine.evaluateWithin float (d' + 1) condition context) := by
  unfold evaluateWithin
  cases h with
  | noOperand hkind hoperand =>
    simp only [hkind, hoperand]
    exact agree_assertionError
  | unknown hkind hname =>
    simp only [hkind]
    cases hrefName : condition.refName with
    | none => exact agree_assertionError
    | some refName =>
      simp only [hname refName hrefName]
      refine ⟨rfl, fun h => absurd (congrArg PyException.className (Except.error.inj h)) ?_⟩
      show "UnknownExpressionError" ≠ "RecursionError"
      decide
  | leaf hkind =>
    cases hcase : condition.kind with
    | compare => exact agree_compare condition
    | roleIs => exact agree_ok _
    | dateBefore => exact agree_date condition true
    | dateAfter => exact agree_date condition false
    | _ =>
      rw [hcase] at hkind
      exact absurd hkind (by decide)

/-- **The expanded condition is evaluated as the condition itself**, with any stacks that are deep enough. -/
theorem evaluate_expand {depth : ℕ} {condition expanded : Condition}
    (h : engine.expandWithin depth condition = .ok expanded) {d d' : ℕ} (hd : depth ≤ d) (hd' : depth ≤ d') :
    Agree (engine.evaluateWithin float d condition context) (engine.evaluateWithin float d' expanded context) := by
  induction depth generalizing condition expanded d d' with
  | zero => cases h
  | succ depth ih =>
    obtain ⟨d, rfl⟩ := Nat.exists_eq_add_of_le' (Nat.le_of_add_left_le hd)
    obtain ⟨d', rfl⟩ := Nat.exists_eq_add_of_le' (Nat.le_of_add_left_le hd')
    have hd : depth ≤ d := Nat.le_of_succ_le_succ hd
    have hd' : depth ≤ d' := Nat.le_of_succ_le_succ hd'
    cases expandWithin_succ.mp h with
    | @children children' hkind hchildren =>
      have hagree : List.Forall₂ (fun child child' => Agree (engine.evaluateWithin float d child context)
          (engine.evaluateWithin float d' child' context)) condition.children children' :=
        hchildren.imp fun _ _ hchild => ih hchild hd hd'
      unfold evaluateWithin
      cases hcase : condition.kind with
      | and => exact agree_allM hagree
      | or => exact agree_anyM hagree
      | _ =>
        rw [hcase] at hkind
        exact absurd hkind (by decide)
    | operand hkind hoperand hexpand =>
      unfold evaluateWithin
      simp only [hkind, hoperand]
      exact (ih hexpand hd hd').bind fun _ => agree_ok _
    | ref hkind hname hget hexpand =>
      rw [evaluateWithin]
      simp only [hkind, hname, hget]
      exact ih hexpand hd (hd'.trans (Nat.le_succ d'))
    | kept hkept => exact agree_kept hkept d d'

end Evaluation

/-! ### Where there is such a condition -/

section Expansion

variable {engine : ConditionEngine} {condition expanded : Condition} {depth depth' : ℕ}

/-- A stack that is deeper is deep enough. -/
lemma expandWithin_mono (h : engine.expandWithin depth condition = .ok expanded) (hle : depth ≤ depth') :
    engine.expandWithin depth' condition = .ok expanded := by
  induction depth generalizing condition expanded depth' with
  | zero => cases h
  | succ depth ih =>
    obtain ⟨depth', rfl⟩ := Nat.exists_eq_add_of_le' (Nat.le_of_add_left_le hle)
    have hle : depth ≤ depth' := Nat.le_of_succ_le_succ hle
    exact expandWithin_succ.mpr ((expandWithin_succ.mp h).mono fun _ _ hexpand => ih hexpand hle)

lemma exists_of_forall₂ {P : Condition → Condition → Prop} {conditions conditions' : List Condition}
    (h : List.Forall₂ P conditions conditions') (hmem : condition ∈ conditions) :
    ∃ c' ∈ conditions', P condition c' := by
  induction h with
  | nil => cases hmem
  | @cons x y xs ys hxy _ ih =>
    rcases List.mem_cons.mp hmem with rfl | hmem
    · exact ⟨y, List.mem_cons_self, hxy⟩
    · obtain ⟨c', hc', hP⟩ := ih hmem
      exact ⟨c', List.mem_cons_of_mem y hc', hP⟩

/-- The parts of an `AND` or an `OR`. -/
lemma mem_children_iff {part : Condition} (hkind : condition.kind ∈ [.and, .or]) :
    part ∈ condition.parts ↔ part ∈ condition.children := by
  unfold Condition.parts
  cases hcase : condition.kind with
  | and | or => rfl
  | _ =>
    rw [hcase] at hkind
    exact absurd hkind (by decide)

/-- A condition in which nothing is replaced refers to nothing that is registered. -/
lemma Kept.not_registered (h : engine.Kept condition) {name : String} (hmention : Mentions condition name) :
    engine.library.get name = none := by
  cases hmention with
  | ref hkind hname =>
    cases h with
    | noOperand hnot => rw [hkind] at hnot; cases hnot
    | unknown _ hunknown => exact hunknown name hname
    | leaf hleaf => rw [hkind] at hleaf; exact absurd (by decide) hleaf
  | part hpart _ =>
    unfold Condition.parts at hpart
    cases h with
    | noOperand hkind hoperand => simp [hkind, hoperand] at hpart
    | unknown hkind _ => simp [hkind] at hpart
    | leaf hleaf => split at hpart <;> simp_all

/-- What is left in an expanded condition are names that are not registered. -/
theorem not_registered (h : engine.expandWithin depth condition = .ok expanded) {name : String}
    (hmention : Mentions expanded name) : engine.library.get name = none := by
  induction depth generalizing condition expanded with
  | zero => cases h
  | succ depth ih =>
    cases expandWithin_succ.mp h with
    | @children children' hkind hchildren =>
      cases hmention with
      | ref href =>
        have href : condition.kind = .ref := href
        rw [href] at hkind
        exact absurd hkind (by decide)
      | @part _ child' _ hpart hmention =>
        have hkind' : ({ condition with children := children' } : Condition).kind ∈ [.and, .or] := hkind
        have hmem : child' ∈ children' := (mem_children_iff hkind').mp hpart
        obtain ⟨child, -, hexpand⟩ := exists_of_forall₂ (List.Forall₂.flip hchildren) hmem
        exact ih hexpand hmention
    | operand hkind hoperand hexpand =>
      cases hmention with
      | ref href =>
        have href : condition.kind = .ref := href
        rw [href] at hkind
        cases hkind
      | part hpart hmention =>
        simp only [Condition.parts, hkind, Option.toList_some, List.mem_singleton] at hpart
        subst hpart
        exact ih hexpand hmention
    | ref _ _ _ hexpand => exact ih hexpand hmention
    | kept hkept => exact hkept.not_registered hmention

/-- The condition can be expanded, if the stack is deep enough. -/
def Expands (engine : ConditionEngine) (condition : Condition) : Prop :=
  ∃ depth expanded, engine.expandWithin depth condition = .ok expanded

/-- Several conditions can be expanded with one stack. -/
lemma mapM_expands {conditions : List Condition} (h : ∀ condition ∈ conditions, engine.Expands condition) :
    ∃ depth expanded, conditions.mapM (engine.expandWithin depth) = .ok expanded := by
  induction conditions with
  | nil => exact ⟨0, [], rfl⟩
  | cons condition conditions ih =>
    obtain ⟨hfirst, hrest⟩ := List.forall_mem_cons.mp h
    obtain ⟨depth, expanded, hexpand⟩ := hfirst
    obtain ⟨depth', expanded', hmap⟩ := ih hrest
    refine ⟨max depth depth', expanded :: expanded', mapM_eq_ok.mpr (.cons ?_ ?_)⟩
    · exact expandWithin_mono hexpand (Nat.le_max_left ..)
    · exact (mapM_eq_ok.mp hmap).imp fun _ _ hchild => expandWithin_mono hchild (Nat.le_max_right ..)

lemma sizeOf_part {part : Condition} (h : part ∈ condition.parts) : sizeOf part < sizeOf condition := by
  obtain ⟨kind, children, operand, _, _, _, _⟩ := condition
  have hchild : part ∈ children → sizeOf part < sizeOf children := List.sizeOf_lt_of_mem
  have hoperand : part ∈ operand.toList → sizeOf part < sizeOf operand := by
    cases operand with
    | none => simp
    | some operand =>
      simp only [Option.toList_some, List.mem_singleton]
      rintro rfl
      simp
  rw [Condition.mk.sizeOf_spec]
  cases kind with
  | and | or =>
    have hlt := hchild h
    omega
  | not =>
    have hlt := hoperand h
    omega
  | _ => cases h

/-- A condition can be expanded, if all that is registered under the names it mentions can be. -/
lemma expands_of_mentions (h : ∀ name referenced, Mentions condition name →
    engine.library.get name = some referenced → engine.Expands referenced) : engine.Expands condition := by
  induction hsize : sizeOf condition using Nat.strong_induction_on generalizing condition with
  | _ size ih =>
    subst hsize
    have hparts : ∀ part ∈ condition.parts, engine.Expands part := fun part hpart =>
      ih _ (sizeOf_part hpart) (fun name referenced hmention => h name referenced (.part hpart hmention)) rfl
    have hkept : engine.Kept condition → engine.Expands condition := fun hkept =>
      ⟨1, condition, expandWithin_succ.mpr (.kept hkept)⟩
    cases hkind : condition.kind with
    | and | or =>
      have hmany : condition.kind ∈ [.and, .or] := by
        rw [hkind]
        decide
      obtain ⟨depth, children', hmap⟩ := mapM_expands fun child hchild =>
        hparts child ((mem_children_iff hmany).mpr hchild)
      exact ⟨depth + 1, _, expandWithin_succ.mpr (.children hmany (mapM_eq_ok.mp hmap))⟩
    | not =>
      cases hoperand : condition.operand with
      | none => exact hkept (.noOperand hkind hoperand)
      | some operand =>
        obtain ⟨depth, operand', hexpand⟩ := hparts operand (by simp [Condition.parts, hkind, hoperand])
        exact ⟨depth + 1, _, expandWithin_succ.mpr (.operand hkind hoperand hexpand)⟩
    | ref =>
      by_cases hknown : ∃ name referenced, condition.refName = some name ∧ engine.library.get name = some referenced
      · obtain ⟨name, referenced, hname, hget⟩ := hknown
        obtain ⟨depth, expanded, hexpand⟩ := h name referenced (.ref hkind hname) hget
        exact ⟨depth + 1, expanded, expandWithin_succ.mpr (.ref hkind hname hget hexpand)⟩
      · refine hkept (.unknown hkind fun name hname => ?_)
        by_contra hget
        obtain ⟨referenced, hget⟩ := Option.ne_none_iff_exists'.mp hget
        exact hknown ⟨name, referenced, hname, hget⟩
    | compare | roleIs | dateBefore | dateAfter =>
      refine hkept (.leaf ?_)
      rw [hkind]
      decide

/-- What a condition that can be expanded mentions leads nowhere for ever. -/
lemma acc_of_expands (h : engine.expandWithin depth condition = .ok expanded) {name : String}
    (hmention : Mentions condition name) : Acc (flip engine.Refers) name := by
  induction depth generalizing condition expanded name with
  | zero => cases h
  | succ depth ih =>
    cases expandWithin_succ.mp h with
    | children hkind hchildren =>
      cases hmention with
      | ref href =>
        rw [href] at hkind
        exact absurd hkind (by decide)
      | part hpart hmention =>
        obtain ⟨child', -, hexpand⟩ := exists_of_forall₂ hchildren ((mem_children_iff hkind).mp hpart)
        exact ih hexpand hmention
    | operand hkind hoperand hexpand =>
      cases hmention with
      | ref href =>
        rw [href] at hkind
        cases hkind
      | part hpart hmention =>
        simp only [Condition.parts, hkind, hoperand, Option.toList_some, List.mem_singleton] at hpart
        subst hpart
        exact ih hexpand hmention
    | ref hkind hname hget hexpand =>
      cases hmention with
      | ref _ hname' =>
        obtain rfl := Option.some.inj (hname.symm.trans hname')
        constructor
        rintro next ⟨c, hget', hmention⟩
        obtain rfl := Option.some.inj (hget.symm.trans hget')
        exact ih hexpand hmention
      | part hpart _ => simp [Condition.parts, hkind] at hpart
    | kept hkept =>
      constructor
      rintro next ⟨c, hget, -⟩
      rw [hkept.not_registered hmention] at hget
      cases hget

/-- **A condition can be expanded** iff no name that it leads to leads back to itself. -/
theorem expands_iff : engine.Expands condition ↔ engine.Grounded condition := by
  constructor
  · rintro ⟨depth, expanded, hexpand⟩ first name hmention hreach
    have hacc : Acc (flip engine.Refers) name := by
      induction hreach with
      | refl => exact acc_of_expands hexpand hmention
      | tail _ hrefers ih => exact ih.inv hrefers
    exact not_transGen_of_acc hacc
  · intro h
    -- The names that the condition leads to: finitely many of them lead anywhere.
    have hreached : Acyclic fun a b => (∃ first, Mentions condition first ∧ ReflTransGen engine.Refers first a) ∧
        engine.Refers a b := by
      intro name hway
      obtain ⟨_, ⟨⟨first, hmention, hreach⟩, -⟩, -⟩ := TransGen.head'_iff.mp hway
      exact h first name hmention hreach (TransGen.mono (fun _ _ hab => hab.2) _ _ hway)
    have hwf := hreached.wellFounded engine.library.finite_keys fun a b ⟨_, c, hget, _⟩ => ⟨c, hget⟩
    have hexpands : ∀ name, (∃ first, Mentions condition first ∧ ReflTransGen engine.Refers first name) →
        ∀ referenced, engine.library.get name = some referenced → engine.Expands referenced := by
      intro name
      induction name using hwf.induction with
      | _ name ih =>
        rintro ⟨first, hmention, hreach⟩ referenced hget
        refine expands_of_mentions fun next c hnext hget' => ?_
        have hrefers : engine.Refers name next := ⟨referenced, hget, hnext⟩
        exact ih next ⟨⟨first, hmention, hreach⟩, hrefers⟩ ⟨first, hmention, hreach.tail hrefers⟩ c hget'
    exact expands_of_mentions fun name referenced hmention => hexpands name ⟨name, hmention, .refl⟩ referenced

end Expansion

/-- **Named conditions are sound** where no name that a condition leads to leads back to itself, and nowhere
else. -/
theorem references_iff (engine : ConditionEngine) (condition : Condition) :
    engine.ReferencesSound condition ↔ engine.Grounded condition := by
  rw [← expands_iff]
  constructor
  · rintro ⟨depth, expanded, hexpand, -⟩
    exact ⟨depth, expanded, hexpand⟩
  · rintro ⟨depth, expanded, hexpand⟩
    exact ⟨depth, expanded, hexpand, fun interpreter context hle => evaluate_expand hexpand hle hle⟩

/-- A name that is registered as a reference to itself. -/
def selfReferring : ConditionEngine := registerExpression {} "a" { kind := .ref, refName := some "a" }

/-- There is no condition it stands for, and it is evaluated until the stack is used up. -/
theorem refers_to_itself : ¬ selfReferring.ReferencesSound { kind := .ref, refName := some "a" } ∧
    ∀ interpreter context, selfReferring.evaluate interpreter { kind := .ref, refName := some "a" } context =
      .error recursionError := by
  constructor
  · rintro ⟨depth, expanded, hexpand, -⟩
    have hmention : Mentions { kind := .ref, refName := some "a" } "a" := .ref rfl rfl
    exact not_transGen_of_acc (acc_of_expands hexpand hmention) (.single ⟨_, rfl, hmention⟩)
  · intro interpreter context
    unfold evaluate
    induction interpreter.recursionLimit with
    | zero => rfl
    | succ depth ih => exact ih

end ConditionEngine

end Tmis.WorkflowAutomation
