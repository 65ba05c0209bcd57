import Mathlib

namespace MpQuic.Library

-- A parser reads tokens from the front of its input.
abbrev Parser (τ ε α : Type) := StateT (List τ) (Except ε) α

variable {τ ε α β : Type}

-- The parser reads exactly these tokens, whatever comes after them.
def Parses (parser : Parser τ ε α) (tokens : List τ) (result : α) : Prop :=
  ∀ rest, parser.run (tokens ++ rest) = .ok (result, rest)

namespace Parser

def next (eof : ε) : Parser τ ε τ := fun tokens =>
  match tokens with
  | [] => .error eof
  | token :: rest => .ok (token, rest)

def take (eof : ε) (count : Nat) : Parser τ ε (List τ) := fun tokens =>
  if tokens.length < count then .error eof
  else .ok (tokens.take count, tokens.drop count)

def remaining : Parser τ ε Nat := fun tokens => .ok (tokens.length, tokens)

def check (condition : Bool) (failure : ε) : Parser τ ε Unit := fun tokens =>
  if condition then .ok ((), tokens) else .error failure

def optional (present : Bool) (absent : α) (parser : Parser τ ε α) : Parser τ ε α :=
  if present then parser else pure absent

def mapError {δ : Type} (wrap : ε → δ) (parser : Parser τ ε α) : Parser τ δ α := fun tokens =>
  (parser.run tokens).mapError wrap

end Parser

namespace Parses

variable {parser : Parser τ ε α} {continuation : α → Parser τ ε β} {tokens : List τ} {middle : α}
  {result : β}

theorem pure (result : α) : Parses (Pure.pure result : Parser τ ε α) [] result := by
  intro rest
  rfl

theorem bind {first second : List τ} (hp : Parses parser first middle)
    (hc : Parses (continuation middle) second result) :
    Parses (parser >>= continuation) (first ++ second) result := by
  intro rest
  have hfirst := hp (second ++ rest)
  have hsecond := hc rest
  rw [List.append_assoc, StateT.run_bind, hfirst]
  exact hsecond

theorem bind_nil (hp : Parses parser [] middle) (hc : Parses (continuation middle) tokens result) :
    Parses (parser >>= continuation) tokens result :=
  Parses.bind hp hc

theorem bind_cons {token : τ} (hp : Parses parser [token] middle)
    (hc : Parses (continuation middle) tokens result) :
    Parses (parser >>= continuation) (token :: tokens) result :=
  Parses.bind hp hc

theorem last (hp : Parses parser tokens middle) (hc : Parses (continuation middle) [] result) :
    Parses (parser >>= continuation) tokens result := by
  have h := Parses.bind hp hc
  rw [List.append_nil] at h
  exact h

theorem map (convert : α → β) (hp : Parses parser tokens middle) :
    Parses (convert <$> parser) tokens (convert middle) := by
  intro rest
  rw [StateT.run_map, hp rest]
  rfl

theorem next (eof : ε) (token : τ) : Parses (Parser.next eof) [token] token := by
  intro rest
  rfl

theorem take (eof : ε) (tokens : List τ) :
    Parses (Parser.take eof tokens.length) tokens tokens := by
  intro rest
  show (if (tokens ++ rest).length < tokens.length then _ else _) = _
  rw [if_neg (by simp), List.take_left, List.drop_left]

theorem check {condition : Bool} (failure : ε) (h : condition = true) :
    Parses (Parser.check condition failure : Parser τ ε Unit) [] () := by
  intro rest
  show (if condition = true then _ else _) = _
  rw [if_pos h]
  rfl

theorem present (absent : α) (hp : Parses parser tokens middle) :
    Parses (Parser.optional true absent parser) tokens middle :=
  hp

theorem absent (parser : Parser τ ε α) (result : α) :
    Parses (Parser.optional false result parser) [] result :=
  Parses.pure result

end Parses

section Accepted

variable {parser : Parser τ ε α} {tokens rest : List τ}

theorem run_bind_ok {continuation : α → Parser τ ε β} {result : β}
    (hrun : (parser >>= continuation).run tokens = .ok (result, rest)) :
    ∃ middle left, parser.run tokens = .ok (middle, left) ∧
      (continuation middle).run left = .ok (result, rest) := by
  rw [StateT.run_bind] at hrun
  cases hfirst : parser.run tokens with
  | error failure =>
    rw [hfirst] at hrun
    cases hrun
  | ok found =>
    rw [hfirst] at hrun
    exact ⟨found.1, found.2, rfl, hrun⟩

theorem run_map_ok {convert : α → β} {result : β}
    (hrun : (convert <$> parser).run tokens = .ok (result, rest)) :
    ∃ middle, parser.run tokens = .ok (middle, rest) ∧ convert middle = result := by
  rw [StateT.run_map] at hrun
  cases hfirst : parser.run tokens with
  | error failure =>
    rw [hfirst] at hrun
    cases hrun
  | ok found =>
    rw [hfirst] at hrun
    cases hrun
    exact ⟨found.1, rfl, rfl⟩

theorem run_mapError_ok {δ : Type} {wrap : ε → δ} {result : α}
    (hrun : (parser.mapError wrap).run tokens = .ok (result, rest)) :
    parser.run tokens = .ok (result, rest) := by
  have hrun : (parser.run tokens).mapError wrap = .ok (result, rest) := hrun
  cases hfirst : parser.run tokens with
  | error failure =>
    rw [hfirst] at hrun
    cases hrun
  | ok found =>
    rw [hfirst] at hrun
    cases hrun
    rfl

theorem run_take_ok {eof : ε} {count : Nat} {result : List τ}
    (hrun : (Parser.take eof count : Parser τ ε (List τ)).run tokens = .ok (result, rest)) :
    count ≤ tokens.length ∧ result = tokens.take count ∧ rest = tokens.drop count := by
  have hrun : (if tokens.length < count then Except.error eof
    else .ok (tokens.take count, tokens.drop count)) = Except.ok (result, rest) := hrun
  split at hrun
  · cases hrun
  next henough =>
    cases hrun
    exact ⟨Nat.le_of_not_lt henough, rfl, rfl⟩

theorem run_check_ok {condition : Bool} {failure : ε} {result : Unit}
    (hrun : (Parser.check condition failure : Parser τ ε Unit).run tokens = .ok (result, rest)) :
    condition = true ∧ rest = tokens := by
  cases condition with
  | false => cases hrun
  | true =>
    cases hrun
    exact ⟨rfl, rfl⟩

end Accepted

-- Whatever the parser accepts, its result has the property.
def Yields (parser : Parser τ ε α) (post : α → Prop) : Prop :=
  ∀ tokens result rest, parser.run tokens = .ok (result, rest) → post result

namespace Yields

variable {parser : Parser τ ε α} {post : α → Prop}

theorem pure {result : α} (h : post result) : Yields (Pure.pure result : Parser τ ε α) post := by
  intro tokens found rest hrun
  cases hrun
  exact h

theorem bind {continuation : α → Parser τ ε β} {goal : β → Prop} (hp : Yields parser post)
    (hc : ∀ middle, post middle → Yields (continuation middle) goal) :
    Yields (parser >>= continuation) goal := by
  intro tokens result rest hrun
  obtain ⟨middle, left, hfirst, hlater⟩ := run_bind_ok hrun
  exact hc middle (hp tokens middle left hfirst) left result rest hlater

theorem any (parser : Parser τ ε α) : Yields parser fun _ => True :=
  fun _ _ _ _ => trivial

theorem map {goal : β → Prop} (convert : α → β) (hp : Yields parser post)
    (h : ∀ result, post result → goal (convert result)) : Yields (convert <$> parser) goal := by
  intro tokens result rest hrun
  obtain ⟨middle, hfirst, rfl⟩ := run_map_ok hrun
  exact h middle (hp tokens middle rest hfirst)

theorem check (condition : Bool) (failure : ε) :
    Yields (Parser.check condition failure : Parser τ ε Unit) fun _ => condition = true :=
  fun _ _ _ hrun => (run_check_ok hrun).1

theorem take (eof : ε) (count : Nat) :
    Yields (Parser.take eof count : Parser τ ε (List τ)) fun tokens => tokens.length = count := by
  intro tokens result rest hrun
  obtain ⟨henough, rfl, -⟩ := run_take_ok hrun
  rw [List.length_take]
  omega

theorem mapError {δ : Type} (wrap : ε → δ) (hp : Yields parser post) :
    Yields (parser.mapError wrap) post :=
  fun tokens result rest hrun => hp tokens result rest (run_mapError_ok hrun)

theorem ite {condition : Prop} [Decidable condition] {other : Parser τ ε α}
    (hp : Yields parser post) (hother : Yields other post) :
    Yields (if condition then parser else other) post := by
  split
  · exact hp
  · exact hother

theorem throw (failure : ε) : Yields (MonadExcept.throw failure : Parser τ ε α) post := by
  intro tokens result rest hrun
  cases hrun

theorem optional {present : Bool} {absent : α} (habsent : present = false → post absent)
    (hp : present = true → Yields parser post) : Yields (Parser.optional present absent parser) post := by
  cases present with
  | true => exact hp rfl
  | false => exact Yields.pure (habsent rfl)

end Yields

end MpQuic.Library
