import Mathlib.Data.List.Basic

/-!
# Regular expressions with groups

A backtracking matcher with the priorities of Go's `regexp`: the leftmost match wins, and at one
position the first that the search finds.
-/

namespace SvpMcp

/-- A regular expression. -/
inductive Regexp where
  /-- One character of a class. -/
  | char (class_ : Char → Bool)
  /-- Any number of characters of a class, the longest run first. -/
  | many (class_ : Char → Bool)
  /-- Any number of characters of a class, the shortest run first. -/
  | manyLazy (class_ : Char → Bool)
  /-- One after the other. -/
  | seq (first second : Regexp)
  /-- Either, with the first preferred. -/
  | alt (first second : Regexp)
  /-- A capturing group. -/
  | group (inner : Regexp)
  /-- Nothing. -/
  | empty
  | textEnd

namespace Regexp

/-- A match at a position: what the groups captured and the text left. -/
abbrev Match := List (List Char) × List Char

/-- The texts left after runs of a class, the shortest run first. -/
def runs (class_ : Char → Bool) : List Char → List (List Char)
  | [] => [[]]
  | c :: rest => (c :: rest) :: if class_ c then runs class_ rest else []

/-- The matches at the start of a text, in order of priority. -/
def matchesAt : Regexp → List Char → List Match
  | .char _, [] => []
  | .char class_, c :: rest => if class_ c then [([], rest)] else []
  | .many class_, text => (runs class_ text).reverse.map fun rest => ([], rest)
  | .manyLazy class_, text => (runs class_ text).map fun rest => ([], rest)
  | .seq first second, text =>
    (matchesAt first text).flatMap fun m =>
      (matchesAt second m.2).map fun n => (m.1 ++ n.1, n.2)
  | .alt first second, text => matchesAt first text ++ matchesAt second text
  | .group inner, text =>
    (matchesAt inner text).map fun m =>
      (text.take (text.length - m.2.length) :: m.1, m.2)
  | .empty, text => [([], text)]
  | .textEnd, text => if text = [] then [([], [])] else []

/-- `FindStringSubmatch` — the groups of the leftmost match. -/
def findSubmatch (re : Regexp) : List Char → Option (List (List Char))
  | [] => (matchesAt re []).head?.map Prod.fst
  | c :: rest =>
    match (matchesAt re (c :: rest)).head? with
    | some m => some m.1
    | none => findSubmatch re rest

/-- The expressions in sequence. -/
def sequence : List Regexp → Regexp
  | [] => .empty
  | re :: rest => .seq re (sequence rest)

/-- A literal text. -/
def literal (text : String) : Regexp :=
  sequence (text.toList.map fun c => .char (· == c))

/-- `\s`. -/
def isSpace (c : Char) : Bool :=
  c = '\t' || c = '\n' || c = '\x0c' || c = '\r' || c = ' '

/-- `\S`. -/
def isNotSpace (c : Char) : Bool := !isSpace c

/-- An expression that matches no text which starts with a character of a class. -/
def Refuses (class_ : Char → Bool) (re : Regexp) : Prop :=
  ∀ c text, class_ c = true → matchesAt re (c :: text) = []

section Parts

variable {class_ : Char → Bool} {first second : Regexp} {text rest word : List Char}

/-- A first part that matches in one way without groups leaves the matches of the second. -/
theorem matchesAt_seq_single (single : matchesAt first text = [([], rest)]) :
    matchesAt (.seq first second) text = matchesAt second rest := by
  rw [matchesAt, single, List.flatMap_singleton]
  exact List.map_id' _

/-- A sequence needs its first part. -/
theorem matchesAt_seq_none (none : matchesAt first text = []) :
    matchesAt (.seq first second) text = [] := by
  rw [matchesAt, none, List.flatMap_nil]

/-- An optional part is tried first. -/
theorem matchesAt_seq_optional :
    matchesAt (.seq (.alt first .empty) second) text =
      matchesAt (.seq first second) text ++ matchesAt second text := by
  have whole : matchesAt (.seq (.alt first .empty) second) text =
      matchesAt (.seq first second) text ++ matchesAt (.seq .empty second) text :=
    List.flatMap_append
  rw [whole, matchesAt_seq_single (show matchesAt .empty text = [([], text)] from rfl)]

/-- Characters match themselves. -/
theorem matchesAt_chars (chars : List Char) :
    matchesAt (sequence (chars.map fun c => .char (· == c))) (chars ++ rest) = [([], rest)] := by
  induction chars with
  | nil => rfl
  | cons c chars ih =>
    have one : matchesAt (.char (· == c)) (c :: (chars ++ rest)) = [([], chars ++ rest)] := by
      simp only [matchesAt, beq_self_eq_true, if_true]
    exact (matchesAt_seq_single one).trans ih

/-- A literal matches itself. -/
theorem matchesAt_literal (literal_ : String) :
    matchesAt (literal literal_) (literal_.toList ++ rest) = [([], rest)] :=
  matchesAt_chars _

/-- Other characters do not match. -/
theorem matchesAt_chars_absent {chars : List Char} (absent : ¬ chars <+: text) :
    matchesAt (sequence (chars.map fun c => .char (· == c))) text = [] := by
  induction chars generalizing text with
  | nil => exact absurd List.nil_prefix absent
  | cons c chars ih =>
    cases text with
    | nil => rfl
    | cons d text =>
      by_cases same : d = c
      · have one : matchesAt (.char (· == c)) (d :: text) = [([], text)] := by
          simp only [matchesAt, same, beq_self_eq_true, if_true]
        have later : ¬ chars <+: text := fun isFront =>
          absent (same ▸ (List.prefix_cons_inj d).mpr isFront)
        exact (matchesAt_seq_single one).trans (ih later)
      · apply matchesAt_seq_none
        simp only [matchesAt, beq_eq_false_iff_ne.mpr same, if_neg Bool.false_ne_true]

/-- Another text does not match. -/
theorem matchesAt_literal_absent {literal_ : String} (absent : ¬ literal_.toList <+: text) :
    matchesAt (literal literal_) text = [] :=
  matchesAt_chars_absent absent

/-- A literal refuses other characters. -/
theorem refuses_literal {literal_ : String} {d : Char} {tail : List Char}
    (starts : literal_.toList = d :: tail) (outside : class_ d = false) :
    Refuses class_ (.seq (literal literal_) second) := by
  intro c text inside
  refine matchesAt_seq_none (matchesAt_literal_absent fun isFront => ?_)
  rw [starts] at isFront
  have same : d = c := (List.cons_prefix_cons.mp isFront).1
  rw [same, inside] at outside
  exact absurd outside (by decide)

/-- Runs over characters of the class end inside them or go on behind them. -/
theorem runs_append (rest : List Char) (inside : ∀ c ∈ word, class_ c = true) :
    ∃ longer, runs class_ (word ++ rest) = longer ++ runs class_ rest ∧
      ∀ left ∈ longer, ∃ t, t ≠ [] ∧ t <:+ word ∧ left = t ++ rest := by
  induction word with
  | nil => exact ⟨[], rfl, fun _ member => absurd member List.not_mem_nil⟩
  | cons c word ih =>
    obtain ⟨longer, isRuns, inWord⟩ := ih fun d member => inside d (List.mem_cons_of_mem _ member)
    refine ⟨(c :: (word ++ rest)) :: longer, ?_, fun left member => ?_⟩
    · rw [List.cons_append, runs, if_pos (inside c List.mem_cons_self), isRuns]
      rfl
    · rcases List.mem_cons.mp member with isWhole | isLonger
      · exact ⟨c :: word, List.cons_ne_nil _ _, List.suffix_rfl, isWhole⟩
      · obtain ⟨t, nonempty, isSuffix, isLeft⟩ := inWord left isLonger
        exact ⟨t, nonempty, isSuffix.trans (List.suffix_cons c word), isLeft⟩

/-- A run stops outside its class. -/
theorem runs_stop (stops : ∀ c ∈ rest.head?, class_ c = false) : runs class_ rest = [rest] := by
  cases rest with
  | nil => rfl
  | cons c rest => rw [runs, if_neg (by rw [stops c rfl]; decide)]

/-- Where what follows a greedy run only goes on behind its last character, the run is taken as a
whole. -/
theorem flatMap_runs_reverse {α : Type} {after : List Char → List α}
    (inside : ∀ c ∈ word, class_ c = true) (stops : ∀ c ∈ rest.head?, class_ c = false)
    (fails : ∀ t, t ≠ [] → t <:+ word → after (t ++ rest) = []) :
    (runs class_ (word ++ rest)).reverse.flatMap after = after rest := by
  obtain ⟨longer, isRuns, inWord⟩ := runs_append rest inside
  have none : longer.reverse.flatMap after = [] := by
    rw [List.flatMap_eq_nil_iff]
    intro left member
    obtain ⟨t, nonempty, isSuffix, isLeft⟩ := inWord left (List.mem_reverse.mp member)
    rw [isLeft]
    exact fails t nonempty isSuffix
  rw [isRuns, runs_stop stops, List.reverse_append, List.flatMap_append, none, List.append_nil]
  exact List.flatMap_singleton ..

/-- A lazy run goes on until what follows matches. -/
theorem flatMap_runs {α : Type} {after : List Char → List α}
    (inside : ∀ c ∈ word, class_ c = true)
    (fails : ∀ t, t ≠ [] → t <:+ word → after (t ++ rest) = []) :
    ∃ more, (runs class_ (word ++ rest)).flatMap after = after rest ++ more := by
  obtain ⟨longer, isRuns, inWord⟩ := runs_append rest inside
  have none : longer.flatMap after = [] := by
    rw [List.flatMap_eq_nil_iff]
    intro left member
    obtain ⟨t, nonempty, isSuffix, isLeft⟩ := inWord left member
    rw [isLeft]
    exact fails t nonempty isSuffix
  have starts : ∃ later, runs class_ rest = rest :: later := by
    cases rest with
    | nil => exact ⟨[], rfl⟩
    | cons c rest => exact ⟨_, rfl⟩
  obtain ⟨later, isRest⟩ := starts
  refine ⟨later.flatMap after, ?_⟩
  rw [isRuns, List.flatMap_append, none, isRest]
  exact List.flatMap_cons

/-- What is refused is refused inside a word. -/
theorem refuses_suffix (rest : List Char) (refuses : Refuses class_ second)
    (inside : ∀ c ∈ word, class_ c = true) {t : List Char} (nonempty : t ≠ [])
    (isSuffix : t <:+ word) :
    matchesAt second (t ++ rest) = [] := by
  cases t with
  | nil => exact absurd rfl nonempty
  | cons c t => exact refuses c _ (inside c (isSuffix.subset List.mem_cons_self))

/-- A run in front of what starts with no character of its class. -/
theorem matchesAt_skip (inside : ∀ c ∈ word, class_ c = true)
    (stops : ∀ c ∈ rest.head?, class_ c = false) (refuses : Refuses class_ second) :
    matchesAt (.seq (.many class_) second) (word ++ rest) = matchesAt second rest := by
  have whole := flatMap_runs_reverse inside stops fun t nonempty isSuffix =>
    refuses_suffix rest refuses inside nonempty isSuffix
  rw [matchesAt, matchesAt, List.flatMap_map, ← whole]
  apply List.flatMap_congr
  intro left _
  exact List.map_id' _

/-- An empty run. -/
theorem matchesAt_skip_none (stops : ∀ c ∈ rest.head?, class_ c = false)
    (refuses : Refuses class_ second) :
    matchesAt (.seq (.many class_) second) rest = matchesAt second rest :=
  matchesAt_skip (fun _ member => absurd member List.not_mem_nil) stops refuses

/-- What a group around a run of at least one character leaves to what follows. -/
def captured (second : Regexp) (text left : List Char) : List Match :=
  (matchesAt second left).map fun n => (text.take (text.length - left.length) :: n.1, n.2)

/-- The word captured. -/
theorem captured_append :
    captured second (word ++ rest) rest =
      (matchesAt second rest).map fun n => (word :: n.1, n.2) := by
  have isWord : (word ++ rest).take ((word ++ rest).length - rest.length) = word := by
    rw [List.length_append, Nat.add_sub_cancel, List.take_left]
  rw [captured, isWord]

/-- A group captures its run. -/
theorem matchesAt_group_run {run : Regexp} {c : Char} {lefts : List (List Char)}
    (inClass : class_ c = true) (isRun : matchesAt run text = lefts.map fun left => ([], left)) :
    matchesAt (.seq (.group (.seq (.char class_) run)) second) (c :: text) =
      lefts.flatMap (captured second (c :: text)) := by
  have one : matchesAt (.char class_) (c :: text) = [([], text)] := by
    rw [matchesAt, if_pos inClass]
  rw [matchesAt, matchesAt, matchesAt_seq_single one, isRun, List.map_map, List.flatMap_map]
  rfl

/-- A group around a greedy run of at least one character, in front of what starts with no
character of its class. -/
theorem matchesAt_word (nonempty : word ≠ []) (inside : ∀ c ∈ word, class_ c = true)
    (stops : ∀ c ∈ rest.head?, class_ c = false) (refuses : Refuses class_ second) :
    matchesAt (.seq (.group (.seq (.char class_) (.many class_))) second) (word ++ rest) =
      (matchesAt second rest).map fun n => (word :: n.1, n.2) := by
  cases word with
  | nil => exact absurd rfl nonempty
  | cons c word =>
    have inTail : ∀ d ∈ word, class_ d = true := fun d member =>
      inside d (List.mem_cons_of_mem _ member)
    have fails : ∀ t, t ≠ [] → t <:+ word →
        captured second (c :: word ++ rest) (t ++ rest) = [] := by
      intro t isNonempty isSuffix
      rw [captured, refuses_suffix rest refuses inTail isNonempty isSuffix, List.map_nil]
    rw [← captured_append, ← flatMap_runs_reverse inTail stops fails]
    exact matchesAt_group_run (inside c List.mem_cons_self) rfl

/-- A group around a lazy run of at least one character, where what follows matches behind a word
and nowhere inside it. -/
theorem matchesAt_word_lazy (nonempty : word ≠ []) (inside : ∀ c ∈ word, class_ c = true)
    (refuses : ∀ t, t ≠ [] → t <:+ word → matchesAt second (t ++ rest) = []) :
    ∃ more, matchesAt (.seq (.group (.seq (.char class_) (.manyLazy class_))) second)
        (word ++ rest) =
      ((matchesAt second rest).map fun n => (word :: n.1, n.2)) ++ more := by
  cases word with
  | nil => exact absurd rfl nonempty
  | cons c word =>
    have inTail : ∀ d ∈ word, class_ d = true := fun d member =>
      inside d (List.mem_cons_of_mem _ member)
    have fails : ∀ t, t ≠ [] → t <:+ word →
        captured second (c :: word ++ rest) (t ++ rest) = [] := by
      intro t isNonempty isSuffix
      rw [captured, refuses t isNonempty (isSuffix.trans (List.suffix_cons c word)), List.map_nil]
    obtain ⟨more, isMore⟩ := flatMap_runs inTail fails
    refine ⟨more, ?_⟩
    rw [← captured_append, ← isMore]
    exact matchesAt_group_run (inside c List.mem_cons_self) rfl

end Parts

section Leftmost

variable {re second : Regexp} {c : Char} {text rest : List Char}

/-- The first match is found. -/
theorem findSubmatch_head {m : Match} {more : List Match} (found : matchesAt re text = m :: more) :
    findSubmatch re text = some m.1 := by
  cases text with
  | nil => rw [findSubmatch, found]; rfl
  | cons c text => rw [findSubmatch, found]; rfl

/-- Without one the search goes on. -/
theorem findSubmatch_next (none : matchesAt re (c :: rest) = []) :
    findSubmatch re (c :: rest) = findSubmatch re rest := by
  rw [findSubmatch, none]
  rfl

/-- An expression that starts with a literal is looked for behind a text in which the literal does
not start. -/
theorem findSubmatch_behind {literal_ : String} {front : List Char}
    (absent : ∀ t, t ≠ [] → t <:+ front → ¬ literal_.toList <+: t ++ rest) :
    findSubmatch (.seq (literal literal_) second) (front ++ rest) =
      findSubmatch (.seq (literal literal_) second) rest := by
  induction front with
  | nil => rfl
  | cons c front ih =>
    have here := absent (c :: front) (List.cons_ne_nil _ _) List.suffix_rfl
    rw [List.cons_append] at here ⊢
    rw [findSubmatch_next (matchesAt_seq_none (matchesAt_literal_absent here))]
    exact ih fun t nonempty isSuffix =>
      absent t nonempty (isSuffix.trans (List.suffix_cons c front))

end Leftmost

end Regexp

end SvpMcp
