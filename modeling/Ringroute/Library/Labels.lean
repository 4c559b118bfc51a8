import Mathlib.Data.List.ReduceOption

namespace Library
set_option autoImplicit true

/-- A list of labelled values with gaps, written with a label only where the label changes. -/
inductive Token (κ α : Type) where
  | label (k : κ)
  | value (a : α)
  | gap
  deriving DecidableEq, Repr

section Labels

variable {κ α : Type}

/-- The label of the last value. -/
def lastLabel (xs : List (Option (κ × α))) : Option κ := xs.reduceOption.getLast?.map Prod.fst

theorem lastLabel_cons (x : Option (κ × α)) (xs : List (Option (κ × α))) :
    lastLabel (x :: xs) = (lastLabel xs).or (lastLabel [x]) := by
  cases x with
  | none => exact Option.or_none.symm
  | some x =>
    rw [lastLabel, lastLabel, List.reduceOption_cons_of_some, List.getLast?_cons]
    cases xs.reduceOption.getLast? <;> rfl

/-- Read from left to right: a value has the latest label before it. -/
def readTokens (last : Option κ) : List (Token κ α) → Option (List (Option (κ × α)))
  | [] => some []
  | .label k :: tokens => readTokens (some k) tokens
  | .value a :: tokens => last.bind fun k => (readTokens last tokens).map (some (k, a) :: ·)
  | .gap :: tokens => (readTokens last tokens).map (none :: ·)

def Token.map (f : κ → κ') (g : α → α') : Token κ α → Token κ' α'
  | .label k => .label (f k)
  | .value a => .value (g a)
  | .gap => .gap

theorem readTokens_map (f : κ → κ') (g : α → α') (last : Option κ) (tokens : List (Token κ α)) :
    readTokens (last.map f) (tokens.map (Token.map f g)) =
      (readTokens last tokens).map (List.map (Option.map (Prod.map f g))) := by
  induction tokens generalizing last with
  | nil => rfl
  | cons token tokens ih =>
    rw [List.map_cons]
    cases token with
    | label k => exact ih (some k)
    | value a =>
      cases last with
      | none => rfl
      | some k =>
        have htail := ih (some k)
        rw [Option.map_some] at htail ⊢
        rw [Token.map, readTokens, readTokens, Option.bind_some, Option.bind_some, htail,
          Option.map_map, Option.map_map]
        rfl
    | gap =>
      rw [Token.map, readTokens, readTokens, ih, Option.map_map, Option.map_map]
      rfl

variable [DecidableEq κ]

def tokensOf (last : Option κ) : Option (κ × α) → List (Token κ α)
  | some (k, a) => if last = some k then [.value a] else [.label k, .value a]
  | none => [.gap]

def writeTokens (last : Option κ) : List (Option (κ × α)) → List (Token κ α)
  | [] => []
  | x :: xs => tokensOf last x ++ writeTokens ((lastLabel [x]).or last) xs

theorem writeTokens_append (last : Option κ) (xs ys : List (Option (κ × α))) :
    writeTokens last (xs ++ ys) =
      writeTokens last xs ++ writeTokens ((lastLabel xs).or last) ys := by
  induction xs generalizing last with
  | nil => rfl
  | cons x xs ih =>
    rw [List.cons_append, writeTokens, writeTokens, ih, List.append_assoc, lastLabel_cons x xs,
      Option.or_assoc]

theorem readTokens_tokensOf (last : Option κ) (x : Option (κ × α)) (tokens : List (Token κ α)) :
    readTokens last (tokensOf last x ++ tokens) =
      (readTokens ((lastLabel [x]).or last) tokens).map (x :: ·) := by
  cases x with
  | none => rfl
  | some x =>
    obtain ⟨k, a⟩ := x
    rw [tokensOf]
    split
    · rename_i hlast
      rw [hlast]
      rfl
    · rfl

/-- Nothing is lost by leaving a repeated label out. -/
theorem readTokens_writeTokens (last : Option κ) (xs : List (Option (κ × α))) :
    readTokens last (writeTokens last xs) = some xs := by
  induction xs generalizing last with
  | nil => rfl
  | cons x xs ih =>
    rw [writeTokens, readTokens_tokensOf, ih]
    rfl

end Labels

theorem label_before_value {κ α : Type} {front back : List (Token κ α)} {a : α}
    (h : (readTokens none (front ++ .value a :: back)).isSome) : ∃ k, .label k ∈ front := by
  induction front with
  | nil => exact absurd h Bool.false_ne_true
  | cons token front ih =>
    cases token with
    | label k => exact ⟨k, List.mem_cons_self⟩
    | value a => exact absurd h Bool.false_ne_true
    | gap =>
      rw [List.cons_append, readTokens, Option.isSome_map] at h
      obtain ⟨k, hk⟩ := ih h
      exact ⟨k, List.mem_cons_of_mem _ hk⟩

end Library
