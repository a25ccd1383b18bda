/-
# Chip8.Proofs.Session.Nesting — calls and returns as brackets.

What a program does to its stack is a word of calls and returns.  A return matches a call if the word
between the two is balanced, that is, made up of matched pairs.  `Flow.IsClosed` says that some return of
a word matches a call in front of it, and `Flow.openCalls` lists the calls of a word that no later return
matches, the oldest first.  Neither speaks of a stack.

That a stack keeps exactly this list is what `openCalls_append_call` and `openCalls_append_ret` say: a
call at the end of a word is one more open call, and a return at the end closes the latest one, the call
that it matches (`matches_iff`).
-/

namespace Chip8

/-- What a cycle does to the nesting of calls. -/
inductive Flow where
  /-- It executes a call that stands at an address. -/
  | call (address : Int)
  /-- It executes a return. -/
  | ret
  deriving DecidableEq

namespace Flow

/-- The step is a call. -/
def isCall : Flow → Bool
  | call _ => true
  | ret => false

/-! ## Balanced words -/

/-- The calls and returns of the word match in pairs. -/
inductive Balanced : List Flow → Prop where
  | nil : Balanced []
  | pair {a : Int} {inner rest : List Flow} (hinner : Balanced inner) (hrest : Balanced rest) :
      Balanced (call a :: (inner ++ ret :: rest))

/-- A return of the word matches a call in front of the word. -/
def IsClosed (word : List Flow) : Prop :=
  ∃ inner after, word = inner ++ ret :: after ∧ Balanced inner

/-- Whether the word has a return too many, read with a number of calls open in front of it. -/
def closes : Nat → List Flow → Bool
  | _, [] => false
  | depth, call _ :: rest => closes (depth + 1) rest
  | 0, ret :: _ => true
  | depth + 1, ret :: rest => closes depth rest

theorem closes_balanced_append {inner : List Flow} (h : Balanced inner) (depth : Nat)
    (word : List Flow) : closes depth (inner ++ word) = closes depth word := by
  induction h generalizing depth word with
  | nil => rfl
  | @pair a inner rest _ _ ihinner ihrest =>
    show closes (depth + 1) (inner ++ ret :: rest ++ word) = _
    rw [List.append_assoc, ihinner]
    exact ihrest depth word

theorem length_lt_of_eq_append_ret {word inner after : List Flow}
    (h : word = inner ++ ret :: after) : after.length < word.length := by
  rw [h, List.length_append, List.length_cons]
  omega

/-- A word with a return too many has a first one, in front of which it is balanced. -/
theorem exists_of_closes {depth : Nat} {word : List Flow} (h : closes depth word = true) :
    ∃ inner after, word = inner ++ ret :: after ∧ Balanced inner ∧
      ∀ d, depth = d + 1 → closes d after = true := by
  match word, depth with
  | [], _ => cases h
  | ret :: after, 0 => exact ⟨[], after, rfl, .nil, nofun⟩
  | ret :: after, d + 1 =>
    refine ⟨[], after, rfl, .nil, ?_⟩
    rintro e he
    cases he
    exact h
  | call a :: rest, depth =>
    -- the first return too many closes this call, the second one is the one that is looked for
    have hcloses : closes (depth + 1) rest = true := h
    obtain ⟨inner, after, hrest, hinner, hafter⟩ := exists_of_closes hcloses
    have hshorter := length_lt_of_eq_append_ret hrest
    obtain ⟨inner', after', rfl, hinner', hafter'⟩ := exists_of_closes (hafter depth rfl)
    refine ⟨call a :: (inner ++ ret :: inner'), after', ?_, .pair hinner hinner', hafter'⟩
    rw [hrest]
    simp only [List.cons_append, List.append_assoc]
termination_by word.length
decreasing_by
  all_goals
    simp only [List.length_cons]
    omega

theorem isClosed_iff_closes {word : List Flow} : IsClosed word ↔ closes 0 word = true := by
  constructor
  · rintro ⟨inner, after, rfl, hinner⟩
    rw [closes_balanced_append hinner]
    rfl
  · intro h
    obtain ⟨inner, after, hword, hinner, -⟩ := exists_of_closes h
    exact ⟨inner, after, hword, hinner⟩

instance (word : List Flow) : Decidable (IsClosed word) :=
  decidable_of_iff (closes 0 word = true) isClosed_iff_closes.symm

/-! ## Open calls -/

/-- The addresses of the calls that no later return matches, the oldest first. -/
def openCalls : List Flow → List Int
  | [] => []
  | ret :: rest => openCalls rest
  | call a :: rest => if IsClosed rest then openCalls rest else a :: openCalls rest

theorem openCalls_call_of_isClosed {rest : List Flow} (h : IsClosed rest) (a : Int) :
    openCalls (call a :: rest) = openCalls rest :=
  if_pos h

theorem openCalls_call_of_not_isClosed {rest : List Flow} (h : ¬ IsClosed rest) (a : Int) :
    openCalls (call a :: rest) = a :: openCalls rest :=
  if_neg h

theorem openCalls_balanced_append {inner : List Flow} (h : Balanced inner) (word : List Flow) :
    openCalls (inner ++ word) = openCalls word := by
  induction h generalizing word with
  | nil => rfl
  | @pair a inner rest hinner _ ihinner ihrest =>
    have hclosed : IsClosed (inner ++ ret :: (rest ++ word)) := ⟨inner, _, rfl, hinner⟩
    rw [List.cons_append, List.append_assoc, List.cons_append,
      openCalls_call_of_isClosed hclosed, ihinner]
    exact ihrest word

/-- A balanced word has no open calls. -/
theorem Balanced.openCalls_eq_nil {word : List Flow} (h : Balanced word) : openCalls word = [] := by
  have hnil := openCalls_balanced_append h []
  rwa [List.append_nil] at hnil

/-- A word without an open call and without a return too many is balanced. -/
theorem balanced_of_openCalls_eq_nil {word : List Flow} (hopen : openCalls word = [])
    (hclosed : ¬ IsClosed word) : Balanced word := by
  match word with
  | [] => exact .nil
  | ret :: rest => exact (hclosed ⟨[], rest, rfl, .nil⟩).elim
  | call a :: rest =>
    by_cases hrest : IsClosed rest
    · rw [openCalls_call_of_isClosed hrest] at hopen
      obtain ⟨inner, after, hsplit, hinner⟩ := hrest
      have hshorter := length_lt_of_eq_append_ret hsplit
      rw [hsplit] at hclosed hopen ⊢
      rw [openCalls_balanced_append hinner] at hopen
      have hafter : ¬ IsClosed after := by
        rintro ⟨inner', after', rfl, hinner'⟩
        refine hclosed ⟨call a :: (inner ++ ret :: inner'), after', ?_, .pair hinner hinner'⟩
        simp only [List.cons_append, List.append_assoc]
      exact .pair hinner (balanced_of_openCalls_eq_nil hopen hafter)
    · rw [openCalls_call_of_not_isClosed hrest] at hopen
      cases hopen
termination_by word.length
decreasing_by
  simp only [List.length_cons]
  omega

/-! ## A word that grows -/

/-- What comes last closes a call in front of the word if the word had closed it before, or if it is a
return and the word was balanced. -/
theorem isClosed_concat {word : List Flow} {x : Flow} :
    IsClosed (word ++ [x]) ↔ IsClosed word ∨ x = ret ∧ Balanced word := by
  constructor
  · rintro ⟨inner, after, hword, hinner⟩
    rcases List.eq_nil_or_concat after with rfl | ⟨after, z, rfl⟩
    · obtain ⟨rfl, hx⟩ := List.append_inj' hword rfl
      cases hx
      exact Or.inr ⟨rfl, hinner⟩
    · rw [List.concat_eq_append, ← List.cons_append, ← List.append_assoc] at hword
      obtain ⟨rfl, -⟩ := List.append_inj' hword rfl
      exact Or.inl ⟨inner, after, rfl, hinner⟩
  · rintro (⟨inner, after, rfl, hinner⟩ | ⟨rfl, hword⟩)
    · exact ⟨inner, after ++ [x], by simp only [List.append_assoc, List.cons_append], hinner⟩
    · exact ⟨word, [], rfl, hword⟩

/-- A call at the end of a word is open. -/
theorem openCalls_append_call (word : List Flow) (a : Int) :
    openCalls (word ++ [call a]) = openCalls word ++ [a] := by
  induction word with
  | nil => rfl
  | cons x rest ih =>
    rw [List.cons_append]
    cases x with
    | ret => exact ih
    | call b =>
      have hsame : IsClosed (rest ++ [call a]) ↔ IsClosed rest := by
        simp only [isClosed_concat, reduceCtorEq, false_and, or_false]
      by_cases hclosed : IsClosed rest
      · rw [openCalls_call_of_isClosed hclosed, openCalls_call_of_isClosed (hsame.mpr hclosed), ih]
      · rw [openCalls_call_of_not_isClosed hclosed,
          openCalls_call_of_not_isClosed (mt hsame.mp hclosed), ih, List.cons_append]

/-- A return at the end of a word closes the latest open call. -/
theorem openCalls_append_ret (word : List Flow) :
    openCalls (word ++ [ret]) = (openCalls word).dropLast := by
  induction word with
  | nil => rfl
  | cons x rest ih =>
    rw [List.cons_append]
    cases x with
    | ret => exact ih
    | call b =>
      have hnow : IsClosed (rest ++ [ret]) ↔ IsClosed rest ∨ Balanced rest := by
        simp only [isClosed_concat, true_and]
      by_cases hclosed : IsClosed rest
      · rw [openCalls_call_of_isClosed hclosed,
          openCalls_call_of_isClosed (hnow.mpr (Or.inl hclosed)), ih]
      · rw [openCalls_call_of_not_isClosed hclosed]
        by_cases hbalanced : Balanced rest
        · -- the return closes this very call, behind which nothing is open
          rw [openCalls_call_of_isClosed (hnow.mpr (Or.inr hbalanced)), ih,
            hbalanced.openCalls_eq_nil]
          rfl
        · have hopen : openCalls rest ≠ [] := fun hnil =>
            hbalanced (balanced_of_openCalls_eq_nil hnil hclosed)
          rw [openCalls_call_of_not_isClosed (mt hnow.mp (not_or.mpr ⟨hclosed, hbalanced⟩)), ih,
            List.dropLast_cons_of_ne_nil hopen]

/-- A balanced word at the end leaves the open calls as they are. -/
theorem openCalls_append_balanced (word : List Flow) {inner : List Flow} (h : Balanced inner) :
    openCalls (word ++ inner) = openCalls word := by
  induction h generalizing word with
  | nil => rw [List.append_nil]
  | @pair a inner rest _ _ ihinner ihrest =>
    have hinner : openCalls (word ++ call a :: inner) = openCalls word ++ [a] := by
      rw [← List.singleton_append, ← List.append_assoc, ihinner, openCalls_append_call]
    have hpair : openCalls (word ++ call a :: inner ++ [ret]) = openCalls word := by
      rw [openCalls_append_ret, hinner, List.dropLast_concat]
    rw [show word ++ call a :: (inner ++ ret :: rest) = word ++ call a :: inner ++ [ret] ++ rest by
      simp only [List.append_assoc, List.cons_append, List.nil_append]]
    rw [ihrest, hpair]

/-- A return behind the word matches its call at the address: what lies between them is balanced. -/
def Matches (word : List Flow) (a : Int) : Prop :=
  ∃ outer inner, word = outer ++ call a :: inner ∧ Balanced inner

/-- The call that a return behind the word matches is the latest open one. -/
theorem matches_iff {word : List Flow} {a : Int} :
    Matches word a ↔ ∃ opens, openCalls word = opens ++ [a] := by
  constructor
  · rintro ⟨outer, inner, rfl, hinner⟩
    refine ⟨openCalls outer, ?_⟩
    rw [← List.singleton_append, ← List.append_assoc, openCalls_append_balanced _ hinner,
      openCalls_append_call]
  · rintro ⟨opens, hopen⟩
    induction word generalizing opens with
    | nil => exact (List.append_ne_nil_of_right_ne_nil opens (List.cons_ne_nil a []) hopen.symm).elim
    | cons x rest ih =>
      -- an open call in the rest is the one, and otherwise the word begins with it
      have hlater : ∀ later, openCalls rest = later ++ [a] → Matches (x :: rest) a := by
        intro later hlater
        obtain ⟨outer, inner, rfl, hinner⟩ := ih later hlater
        exact ⟨x :: outer, inner, rfl, hinner⟩
      cases x with
      | ret => exact hlater opens hopen
      | call b =>
        by_cases hclosed : IsClosed rest
        · rw [openCalls_call_of_isClosed hclosed] at hopen
          exact hlater opens hopen
        · rw [openCalls_call_of_not_isClosed hclosed] at hopen
          cases opens with
          | nil =>
            obtain ⟨rfl, hnil⟩ := List.cons.inj hopen
            exact ⟨[], rest, rfl, balanced_of_openCalls_eq_nil hnil hclosed⟩
          | cons c later => exact hlater later (List.cons.inj hopen).2

end Flow

end Chip8
