import Mathlib.Data.List.Basic
import Mathlib.Data.List.Chain

/-!
# Text in XML

`xml.sax.saxutils`: the characters that mean something to XML are written as references, and read back.

* `escape`, `quoteattr` — a text as content, and as the value of an attribute;
* `unescape` — the text that content stands for;
* `unescape_escape` — content stands for the text it was made of.
-/

namespace Tmis.Lib.XmlText

/-- `escape` of a character. -/
def reference : Char → List Char
  | '&' => ['&', 'a', 'm', 'p', ';']
  | '<' => ['&', 'l', 't', ';']
  | '>' => ['&', 'g', 't', ';']
  | c => [c]

def escape (s : String) : String := String.ofList (s.toList.flatMap reference)

/-- What the references of `escape` stand for. -/
def resolve : List Char → List Char
  | '&' :: 'a' :: 'm' :: 'p' :: ';' :: cs => '&' :: resolve cs
  | '&' :: 'l' :: 't' :: ';' :: cs => '<' :: resolve cs
  | '&' :: 'g' :: 't' :: ';' :: cs => '>' :: resolve cs
  | c :: cs => c :: resolve cs
  | [] => []

def unescape (s : String) : String := String.ofList (resolve s.toList)

lemma resolve_cons {c : Char} (h : c ≠ '&') (cs : List Char) : resolve (c :: cs) = c :: resolve cs := by
  rw [resolve]
  all_goals
    rintro _ ⟨⟩
    exact absurd rfl h

lemma resolve_flatMap_reference (cs : List Char) : resolve (cs.flatMap reference) = cs := by
  induction cs with
  | nil => rfl
  | cons c cs ih =>
    rw [List.flatMap_cons]
    by_cases hamp : c = '&'
    · subst hamp
      exact congrArg ('&' :: ·) ih
    by_cases hlt : c = '<'
    · subst hlt
      exact congrArg ('<' :: ·) ih
    by_cases hgt : c = '>'
    · subst hgt
      exact congrArg ('>' :: ·) ih
    have hplain : reference c = [c] := by
      unfold reference
      split <;> simp_all
    rw [hplain, List.singleton_append, resolve_cons hamp, ih]

/-- **Content stands for the text** it was made of. -/
theorem unescape_escape (s : String) : unescape (escape s) = s := by
  rw [unescape, escape, String.toList_ofList, resolve_flatMap_reference, String.ofList_toList]

end Tmis.Lib.XmlText

/-!
## Text in HTML

`html.escape`: the characters that mean something to HTML are written as references; and a reader that goes by
tags and references.

* `escape`, `unescape_escape` — a text as content, and what content stands for;
* `Token`, `tokens` — what a page is read as: tags, and the texts between them;
* `render`, `tokens_render` — tags and escaped texts one after the other are read as that, whatever the texts are;
* `joined` — lines one below the other;
* `blocks`, `blocks_tokens_render` — the elements that hold nothing but a text, written and read;
* `tableRows`, `tableRows_row` — the rows of a table.
-/

namespace Tmis.Lib.Html

/-- `html.escape` of a character. -/
def reference : Char → List Char
  | '"' => ['&', 'q', 'u', 'o', 't', ';']
  | '\'' => ['&', '#', 'x', '2', '7', ';']
  | c => XmlText.reference c

/-- `html.escape`. -/
def escape (cs : List Char) : List Char := cs.flatMap reference

/-- The text that content stands for. -/
def unescape : List Char → List Char
  | '&' :: 'a' :: 'm' :: 'p' :: ';' :: cs => '&' :: unescape cs
  | '&' :: 'l' :: 't' :: ';' :: cs => '<' :: unescape cs
  | '&' :: 'g' :: 't' :: ';' :: cs => '>' :: unescape cs
  | '&' :: 'q' :: 'u' :: 'o' :: 't' :: ';' :: cs => '"' :: unescape cs
  | '&' :: '#' :: 'x' :: '2' :: '7' :: ';' :: cs => '\'' :: unescape cs
  | c :: cs => c :: unescape cs
  | [] => []

/-! ### References -/

/-- The characters that are written as references. -/
def special : List Char := ['&', '<', '>', '"', '\'']

lemma reference_of_notMem {c : Char} (h : c ∉ special) : reference c = [c] := by
  simp only [special, List.mem_cons, List.not_mem_nil, or_false, not_or] at h
  unfold reference
  split <;> simp_all [XmlText.reference]

lemma unescape_cons {c : Char} (h : c ≠ '&') (cs : List Char) : unescape (c :: cs) = c :: unescape cs := by
  rw [unescape]
  all_goals
    rintro _ ⟨⟩
    exact absurd rfl h

/-- **Content stands for the text** it was made of. -/
theorem unescape_escape (cs : List Char) : unescape (escape cs) = cs := by
  induction cs with
  | nil => rfl
  | cons c cs ih =>
    rw [escape, List.flatMap_cons]
    by_cases hspecial : c ∈ special
    · simp only [special, List.mem_cons, List.not_mem_nil, or_false] at hspecial
      rcases hspecial with rfl | rfl | rfl | rfl | rfl
      all_goals exact congrArg (_ :: ·) ih
    · rw [reference_of_notMem hspecial, List.singleton_append, unescape_cons ?_ _]
      · exact congrArg (c :: ·) ih
      · rintro rfl
        exact hspecial List.mem_cons_self

lemma lt_notMem_reference (c : Char) : '<' ∉ reference c := by
  by_cases hspecial : c ∈ special
  · simp only [special, List.mem_cons, List.not_mem_nil, or_false] at hspecial
    rcases hspecial with rfl | rfl | rfl | rfl | rfl
    all_goals decide
  · rw [reference_of_notMem hspecial, List.mem_singleton]
    rintro rfl
    exact hspecial (by decide)

/-- No tag begins in what is escaped. -/
lemma lt_notMem_escape (cs : List Char) : '<' ∉ escape cs := by
  intro h
  obtain ⟨c, -, hc⟩ := List.mem_flatMap.mp h
  exact lt_notMem_reference c hc

lemma escape_eq_nil_iff {cs : List Char} : escape cs = [] ↔ cs = [] := by
  constructor
  · intro h
    rw [← unescape_escape cs, h]
    rfl
  · rintro rfl
    rfl

/-! ### Reading a page -/

/-- What stands between `<` and `>`, or a text. -/
inductive Token where
  | tag (name : List Char)
  | text (cs : List Char)
  deriving DecidableEq

/-- A text, if there is one. -/
def textToken (cs : List Char) : List Token := if cs = [] then [] else [.text (unescape cs)]

/-- Read on, in a tag or between tags, of which `acc` was read. -/
def readFrom : (inTag : Bool) → (acc : List Char) → List Char → List Token
  | false, acc, [] => textToken acc
  | false, acc, c :: cs => if c = '<' then textToken acc ++ readFrom true [] cs else readFrom false (acc ++ [c]) cs
  | true, _, [] => []
  | true, acc, c :: cs => if c = '>' then .tag acc :: readFrom false [] cs else readFrom true (acc ++ [c]) cs

def tokens (page : List Char) : List Token := readFrom false [] page

/-- How a token is written. -/
def Token.chars : Token → List Char
  | .tag name => '<' :: name ++ ['>']
  | .text cs => escape cs

def render (ts : List Token) : List Char := ts.flatMap Token.chars

def Token.isTag : Token → Prop
  | .tag _ => True
  | .text _ => False

/-- Tags with no `>` in them, and no text right after a text. -/
structure WellFormed (ts : List Token) : Prop where
  tags : ∀ name, .tag name ∈ ts → '>' ∉ name
  apart : ts.IsChain fun a b => a.isTag ∨ b.isTag

/-- All but the texts that are empty. -/
def visible (ts : List Token) : List Token := ts.filter (· ≠ .text [])

lemma WellFormed.tail {t : Token} {ts : List Token} (h : WellFormed (t :: ts)) : WellFormed ts where
  tags name hname := h.tags name (List.mem_cons_of_mem _ hname)
  apart := h.apart.tail

lemma readFrom_text {cs : List Char} (h : '<' ∉ cs) (acc rest : List Char) :
    readFrom false acc (cs ++ rest) = readFrom false (acc ++ cs) rest := by
  induction cs generalizing acc with
  | nil => rw [List.nil_append, List.append_nil]
  | cons c cs ih =>
    rw [List.mem_cons, not_or] at h
    rw [List.cons_append, readFrom, if_neg (Ne.symm h.1), ih h.2, List.append_assoc]
    rfl

lemma readFrom_tag {name : List Char} (h : '>' ∉ name) (acc rest : List Char) :
    readFrom true acc (name ++ '>' :: rest) = .tag (acc ++ name) :: readFrom false [] rest := by
  induction name generalizing acc with
  | nil => rw [List.nil_append, List.append_nil, readFrom, if_pos rfl]
  | cons c cs ih =>
    rw [List.mem_cons, not_or] at h
    rw [List.cons_append, readFrom, if_neg (Ne.symm h.1), ih h.2, List.append_assoc]
    rfl

lemma textToken_escape (cs : List Char) : textToken (escape cs) = visible [.text cs] := by
  unfold textToken
  by_cases h : cs = []
  · rw [if_pos (escape_eq_nil_iff.mpr h), h]
    rfl
  · rw [if_neg (escape_eq_nil_iff.not.mpr h), unescape_escape]
    simp [visible, h]

lemma visible_cons (t : Token) (ts : List Token) : visible (t :: ts) = visible [t] ++ visible ts := by
  rw [visible, visible, visible, ← List.filter_append, List.singleton_append]

lemma render_cons (t : Token) (ts : List Token) : render (t :: ts) = t.chars ++ render ts := rfl

lemma render_append (ts us : List Token) : render (ts ++ us) = render ts ++ render us := List.flatMap_append

lemma readFrom_render_tag {name : List Char} (h : '>' ∉ name) (acc : List Char) (ts : List Token) :
    readFrom false acc (render (.tag name :: ts)) = textToken acc ++ .tag name :: readFrom false [] (render ts) := by
  rw [render_cons, Token.chars, List.append_assoc, List.cons_append, readFrom, if_pos rfl, List.singleton_append,
    readFrom_tag h, List.nil_append]

/-- **Tags and escaped texts are read as that**, whatever the texts are. -/
theorem tokens_render : ∀ {ts : List Token}, WellFormed ts → tokens (render ts) = visible ts
  | [], _ => rfl
  | .tag name :: ts, h => by
      have ih : readFrom false [] (render ts) = visible ts := tokens_render h.tail
      rw [tokens, readFrom_render_tag (h.tags name List.mem_cons_self), ih]
      rfl
  | [.text cs], _ => by
      rw [tokens, render_cons, Token.chars, readFrom_text (lt_notMem_escape cs), List.nil_append,
        ← textToken_escape]
      rfl
  | .text cs :: .text cs' :: ts, h => by
      rcases (List.isChain_cons_cons.mp h.apart).1 with htag | htag <;> cases htag
  | .text cs :: .tag name :: ts, h => by
      have ih : readFrom false [] (render (.tag name :: ts)) = visible (.tag name :: ts) := tokens_render h.tail
      have hname := h.tags name (List.mem_cons_of_mem _ List.mem_cons_self)
      rw [readFrom_render_tag hname] at ih
      rw [tokens, render_cons, Token.chars, readFrom_text (lt_notMem_escape cs), List.nil_append,
        readFrom_render_tag hname, textToken_escape, visible_cons (.text cs) (.tag name :: ts), ← ih]
      rfl

/-! ### Lines -/

/-- Tags and texts that begin and end with a tag. -/
structure Line (ts : List Token) : Prop extends WellFormed ts where
  first : ∃ name, ts.head? = some (.tag name)
  last : ∃ name, ts.getLast? = some (.tag name)

/-- Lines one below the other. -/
def joined (first : List Token) (lines : List (List Token)) : List Token :=
  first ++ lines.flatMap fun line => .text ['\n'] :: line

lemma line_tag {name : List Char} (h : '>' ∉ name) : Line [.tag name] where
  tags n hn := by
    cases List.mem_singleton.mp hn
    exact h
  apart := .singleton _
  first := ⟨name, rfl⟩
  last := ⟨name, rfl⟩

lemma Line.cons {name : List Char} {ts : List Token} (hname : '>' ∉ name) (h : Line ts) : Line (.tag name :: ts) where
  tags n hn := by
    rcases List.mem_cons.mp hn with hn | hn
    · cases hn
      exact hname
    · exact h.tags n hn
  apart := List.isChain_cons.mpr ⟨fun _ _ => Or.inl trivial, h.apart⟩
  first := ⟨name, rfl⟩
  last := by
    obtain ⟨last, hlast⟩ := h.last
    exact ⟨last, by rw [List.getLast?_cons, hlast]; rfl⟩

lemma Line.snoc {name : List Char} {ts : List Token} (h : Line ts) (hname : '>' ∉ name) : Line (ts ++ [.tag name]) where
  tags n hn := by
    rcases List.mem_append.mp hn with hn | hn
    · exact h.tags n hn
    · cases List.mem_singleton.mp hn
      exact hname
  apart := by
    refine List.isChain_append.mpr ⟨h.apart, .singleton _, fun _ _ t ht => Or.inr ?_⟩
    cases ht
    trivial
  first := by
    obtain ⟨first, hfirst⟩ := h.first
    exact ⟨first, by rw [List.head?_append, hfirst]; rfl⟩
  last := ⟨name, List.getLast?_concat⟩

/-- A line goes on in a line below it. -/
lemma Line.append {ts us : List Token} (h : Line ts) (hus : Line us) : Line (ts ++ .text ['\n'] :: us) where
  tags name hname := by
    rcases List.mem_append.mp hname with hname | hname
    · exact h.tags name hname
    · exact hus.tags name ((List.mem_cons.mp hname).resolve_left nofun)
  apart := by
    obtain ⟨last, hlast⟩ := h.last
    obtain ⟨first, hfirst⟩ := hus.first
    refine List.isChain_append.mpr ⟨h.apart, List.isChain_cons.mpr ⟨fun t ht => ?_, hus.apart⟩, fun t ht _ _ => ?_⟩
    · rw [hfirst] at ht
      cases ht
      exact Or.inr trivial
    · rw [hlast] at ht
      cases ht
      exact Or.inl trivial
  first := by
    obtain ⟨first, hfirst⟩ := h.first
    exact ⟨first, by rw [List.head?_append, hfirst]; rfl⟩
  last := by
    obtain ⟨last, hlast⟩ := hus.last
    refine ⟨last, ?_⟩
    rw [List.getLast?_append, List.getLast?_cons, hlast]
    rfl

/-- A line goes on in another one. -/
lemma Line.concat {ts us : List Token} (h : Line ts) (hus : Line us) : Line (ts ++ us) where
  tags name hname := (List.mem_append.mp hname).elim (h.tags name) (hus.tags name)
  apart := by
    obtain ⟨last, hlast⟩ := h.last
    refine List.isChain_append.mpr ⟨h.apart, hus.apart, fun t ht _ _ => ?_⟩
    rw [hlast] at ht
    cases ht
    exact Or.inl trivial
  first := by
    obtain ⟨first, hfirst⟩ := h.first
    exact ⟨first, by rw [List.head?_append, hfirst]; rfl⟩
  last := by
    obtain ⟨last, hlast⟩ := hus.last
    exact ⟨last, by rw [List.getLast?_append, hlast]; rfl⟩

/-- A line goes on in others, if there are some. -/
lemma Line.flatMap {α : Type*} {f : α → List Token} {ts : List Token} (h : Line ts) {as : List α}
    (hf : ∀ a ∈ as, Line (f a)) : Line (ts ++ as.flatMap f) := by
  induction as generalizing ts with
  | nil => rwa [List.flatMap_nil, List.append_nil]
  | cons a as ih =>
    obtain ⟨ha, has⟩ := List.forall_mem_cons.mp hf
    rw [List.flatMap_cons, ← List.append_assoc]
    exact ih (h.concat ha) has

/-- **Lines one below the other** are well formed. -/
theorem line_joined {first : List Token} {lines : List (List Token)} (hfirst : Line first)
    (hlines : ∀ line ∈ lines, Line line) : Line (joined first lines) := by
  induction lines generalizing first with
  | nil =>
    have hnil : joined first [] = first := List.append_nil first
    rwa [hnil]
  | cons line lines ih =>
    obtain ⟨hline, hlines⟩ := List.forall_mem_cons.mp hlines
    have hcons : joined first (line :: lines) = joined (first ++ .text ['\n'] :: line) lines := by
      simp [joined]
    rw [hcons]
    exact ih (hfirst.append hline) hlines

/-- `"\n".join(parts)`, of the lines as they are written. -/
lemma render_joined (first : List Token) (lines : List (List Token)) :
    render (joined first lines) = render first ++ lines.flatMap fun line => '\n' :: render line := by
  rw [joined, render_append]
  congr 1
  induction lines with
  | nil => rfl
  | cons line lines ih =>
    rw [List.flatMap_cons, render_append, ih, List.flatMap_cons]
    rfl

/-! ### Elements -/

/-- The elements that hold nothing but a text: their tags, and the texts.  `opened` is the tag read last, with the
text since, unless it closes. -/
def blocksFrom : Option (List Char × List Char) → List Token → List (List Char × List Char)
  | _, [] => []
  | opened, .text cs :: ts => blocksFrom (opened.map fun block => (block.1, block.2 ++ cs)) ts
  | opened, .tag ('/' :: name) :: ts => (opened.filter (·.1 = name)).toList ++ blocksFrom none ts
  | _, .tag name :: ts => blocksFrom (some (name, [])) ts

def blocks (ts : List Token) : List (List Char × List Char) := blocksFrom none ts

/-- An element with a text in it. -/
def element (name cs : List Char) : List Token := [.tag name, .text cs, .tag ('/' :: name)]

lemma line_element {name : List Char} (h : '>' ∉ name) (cs : List Char) : Line (element name cs) where
  tags n hn := by
    rcases List.mem_cons.mp hn with hn | hn
    · cases hn
      exact h
    · cases List.mem_singleton.mp ((List.mem_cons.mp hn).resolve_left nofun)
      exact fun hmem => h ((List.mem_cons.mp hmem).resolve_left (by decide))
  apart := .cons_cons (Or.inl trivial) (.cons_cons (Or.inr trivial) (.singleton _))
  first := ⟨name, rfl⟩
  last := ⟨'/' :: name, rfl⟩

@[simp] lemma blocksFrom_text (opened : Option (List Char × List Char)) (cs : List Char) (ts : List Token) :
    blocksFrom opened (.text cs :: ts) = blocksFrom (opened.map fun block => (block.1, block.2 ++ cs)) ts := rfl

lemma blocksFrom_open {name : List Char} (h : name.head? ≠ some '/') (opened : Option (List Char × List Char))
    (ts : List Token) : blocksFrom opened (.tag name :: ts) = blocksFrom (some (name, [])) ts := by
  rw [blocksFrom]
  rintro _ rfl
  exact h rfl

/-- Empty texts make no difference. -/
lemma blocksFrom_visible (opened : Option (List Char × List Char)) (ts : List Token) :
    blocksFrom opened (visible ts) = blocksFrom opened ts := by
  induction ts generalizing opened with
  | nil => rfl
  | cons t ts ih =>
    cases t with
    | text cs =>
      by_cases hcs : cs = []
      · have hsame : opened.map (fun block => (block.1, block.2 ++ cs)) = opened := by
          rw [hcs]
          simp
        rw [blocksFrom_text, hsame, ← ih, visible_cons, hcs]
        rfl
      · have hvisible : visible (.text cs :: ts) = .text cs :: visible ts := by simp [visible, hcs]
        rw [hvisible, blocksFrom_text, blocksFrom_text, ih]
    | tag name =>
      have hvisible : visible (.tag name :: ts) = .tag name :: visible ts := rfl
      rw [hvisible]
      rcases name with _ | ⟨c, name⟩
      · exact ih _
      · by_cases hslash : c = '/'
        · subst hslash
          rw [blocksFrom, blocksFrom, ih]
        · have hopen : (c :: name).head? ≠ some '/' := by simpa using hslash
          rw [blocksFrom_open hopen, blocksFrom_open hopen, ih]

/-- **An element is a block**, also where its text is empty. -/
theorem blocksFrom_element {name : List Char} (h : name.head? ≠ some '/') (cs : List Char)
    (opened : Option (List Char × List Char)) (ts : List Token) :
    blocksFrom opened (element name cs ++ ts) = (name, cs) :: blocksFrom none ts := by
  show blocksFrom opened (.tag name :: .text cs :: .tag ('/' :: name) :: ts) = _
  rw [blocksFrom_open h, blocksFrom_text, blocksFrom]
  simp [Option.filter]

/-! #### What a page shows -/

/-- The tokens hold these blocks, and leave no tag open. -/
def Shows (ts : List Token) (bs : List (List Char × List Char)) : Prop :=
  ∀ rest, blocksFrom none (ts ++ rest) = bs ++ blocksFrom none rest

lemma shows_nil : Shows [] [] := fun _ => rfl

lemma Shows.append {ts us : List Token} {bs cs : List (List Char × List Char)} (h : Shows ts bs) (h' : Shows us cs) :
    Shows (ts ++ us) (bs ++ cs) := fun rest => by
  rw [List.append_assoc, h, h', List.append_assoc]

lemma shows_text (cs : List Char) : Shows [.text cs] [] := fun _ => rfl

lemma shows_closing (name : List Char) : Shows [.tag ('/' :: name)] [] := fun _ => rfl

/-- A text, or a tag that opens an element. -/
def Token.opens : Token → Prop
  | .tag name => name.head? ≠ some '/'
  | .text _ => True

instance : DecidablePred Token.opens
  | .tag name => inferInstanceAs (Decidable (name.head? ≠ some '/'))
  | .text _ => .isTrue trivial

/-- An element, in whatever was opened before it. -/
lemma blocksFrom_opens_element {name : List Char} (h : name.head? ≠ some '/') (cs : List Char) {before : List Token}
    (hbefore : ∀ t ∈ before, t.opens) (opened : Option (List Char × List Char)) (ts : List Token) :
    blocksFrom opened (before ++ (element name cs ++ ts)) = (name, cs) :: blocksFrom none ts := by
  induction before generalizing opened with
  | nil => exact blocksFrom_element h cs opened ts
  | cons t before ih =>
    obtain ⟨ht, hrest⟩ := List.forall_mem_cons.mp hbefore
    rw [List.cons_append]
    cases t with
    | text cs' =>
      rw [blocksFrom_text]
      exact ih hrest _
    | tag name' =>
      rw [blocksFrom_open ht]
      exact ih hrest _

lemma shows_element {name : List Char} (h : name.head? ≠ some '/') (cs : List Char) {before : List Token}
    (hbefore : ∀ t ∈ before, t.opens) : Shows (before ++ element name cs) [(name, cs)] := by
  intro rest
  rw [List.append_assoc]
  exact blocksFrom_opens_element h cs hbefore none rest

lemma shows_flatMap {α : Type*} {f : α → List Token} {g : α → List (List Char × List Char)} :
    ∀ {as : List α}, (∀ a ∈ as, Shows (f a) (g a)) → Shows (as.flatMap f) (as.flatMap g)
  | [], _ => shows_nil
  | a :: as, h => by
      obtain ⟨ha, has⟩ := List.forall_mem_cons.mp h
      rw [List.flatMap_cons, List.flatMap_cons]
      exact ha.append (shows_flatMap has)

/-! #### Tables -/

/-- The cells of the rows of a table, in order. -/
def tableRows : List Token → List (List (List Char))
  | [] => []
  | t :: ts =>
      if t = .tag "tr".toList then (blocks (ts.takeWhile (· ≠ .tag "/tr".toList))).map Prod.snd :: tableRows ts
      else tableRows ts

/-- A row of cells. -/
def rowTokens (name : List Char) (cells : List (List Char)) : List Token :=
  .tag "tr".toList :: (cells.flatMap (element name) ++ [.tag "/tr".toList])

lemma tableRows_append {ts : List Token} (h : .tag "tr".toList ∉ ts) (us : List Token) :
    tableRows (ts ++ us) = tableRows us := by
  induction ts with
  | nil => rfl
  | cons t ts ih =>
    rw [List.mem_cons, not_or] at h
    rw [List.cons_append, tableRows, if_neg (Ne.symm h.1), ih h.2]

lemma mem_cells {name : List Char} {cells : List (List Char)} {tag : List Char}
    (h : .tag tag ∈ visible (cells.flatMap (element name))) : tag = name ∨ tag = '/' :: name := by
  obtain ⟨cs, -, hcs⟩ := List.mem_flatMap.mp (List.mem_filter.mp h).1
  simpa [element] using hcs

lemma blocks_cells {name : List Char} (h : name.head? ≠ some '/') (cells : List (List Char)) :
    blocks (visible (cells.flatMap (element name))) = cells.map fun cs => (name, cs) := by
  have hcell (cs : List Char) : Shows (element name cs) [(name, cs)] := blocksFrom_element h cs none
  have hcells := shows_flatMap (fun cs (_ : cs ∈ cells) => hcell cs) []
  rw [List.append_nil, ← List.map_eq_flatMap] at hcells
  exact (blocksFrom_visible none _).trans (hcells.trans (List.append_nil _))

/-- **A row is read as its cells**, also where some are empty. -/
theorem tableRows_row {name : List Char} (h : name.head? ≠ some '/') (hname : name ≠ "tr".toList)
    (cells : List (List Char)) (rest : List Token) :
    tableRows (visible (rowTokens name cells) ++ rest) = cells :: tableRows rest := by
  have hvisible : visible (rowTokens name cells) ++ rest =
      .tag "tr".toList :: (visible (cells.flatMap (element name)) ++ .tag "/tr".toList :: rest) := by
    simp [rowTokens, visible]
  have hopen : .tag "tr".toList ∉ visible (cells.flatMap (element name)) := fun hmem => by
    rcases mem_cells hmem with heq | heq
    · exact hname heq.symm
    · cases heq
  have hclose : ∀ t ∈ visible (cells.flatMap (element name)), decide (t ≠ .tag "/tr".toList) = true := by
    rintro t ht
    refine decide_eq_true ?_
    rintro rfl
    rcases mem_cells ht with heq | heq
    · exact h (by rw [← heq]; rfl)
    · exact hname (List.cons.inj heq).2.symm
  have hskip : tableRows (.tag "/tr".toList :: rest) = tableRows rest := rfl
  rw [hvisible, tableRows, if_pos rfl, List.takeWhile_append_of_pos hclose, List.takeWhile_cons,
    if_neg (by simp), List.append_nil, blocks_cells h, tableRows_append hopen, hskip, List.map_map]
  exact congrArg (· :: tableRows rest) (List.map_id cells)

lemma visible_append (ts us : List Token) : visible (ts ++ us) = visible ts ++ visible us := List.filter_append ..

lemma tableRows_rows {name : List Char} (h : name.head? ≠ some '/') (hname : name ≠ "tr".toList)
    (rows : List (List (List Char))) (rest : List Token) :
    tableRows (visible (rows.flatMap (rowTokens name)) ++ rest) = rows ++ tableRows rest := by
  induction rows with
  | nil => rfl
  | cons row rows ih =>
    rw [List.flatMap_cons, visible_append, List.append_assoc, tableRows_row h hname, ih]
    rfl

/-- A row is a line. -/
lemma line_rowTokens {name : List Char} (h : '>' ∉ name) (cells : List (List Char)) : Line (rowTokens name cells) := by
  have htr : Line [.tag "tr".toList] := line_tag (by decide)
  exact (htr.flatMap fun cs (_ : cs ∈ cells) => line_element h cs).snoc (by decide)

/-- **What is written is read**: the blocks of a page are those it is made of. -/
theorem blocks_tokens_render {ts : List Token} (h : WellFormed ts) : blocks (tokens (render ts)) = blocks ts := by
  rw [tokens_render h]
  exact blocksFrom_visible none ts

end Tmis.Lib.Html
