import PathCover.Proofs.Token.Significant

/-!
# Nesting of groups

How many parentheses and how many brackets are open at the same time, counted over the tokens of a
text alone.  A closing token that closes nothing is not counted.
-/

namespace PathCover.Token

/-- How many groups of either kind are open. -/
structure Groups where
  parens : Nat
  brackets : Nat
  deriving DecidableEq

namespace Groups

/-- No group is open. -/
def none : Groups := ⟨0, 0⟩

/-- The open groups behind a token. -/
def after (groups : Groups) : TokenKind → Groups
  | .parenOpen => { groups with parens := groups.parens + 1 }
  | .parenClose => { groups with parens := groups.parens - 1 }
  | .bracketOpen => { groups with brackets := groups.brackets + 1 }
  | .bracketClose => { groups with brackets := groups.brackets - 1 }
  | _ => groups

/-- At most `limit` groups of either kind are open. -/
structure Within (groups : Groups) (limit : Nat) : Prop where
  parens : groups.parens ≤ limit
  brackets : groups.brackets ≤ limit

instance (groups : Groups) (limit : Nat) : Decidable (groups.Within limit) :=
  decidable_of_iff (groups.parens ≤ limit ∧ groups.brackets ≤ limit)
    ⟨fun both => ⟨both.1, both.2⟩, fun within => ⟨within.parens, within.brackets⟩⟩

/-- At most `limit` groups of either kind are open at the start of a run of tokens and behind each
of them. -/
def StayWithin (limit : Nat) : Groups → List TokenKind → Prop
  | groups, [] => groups.Within limit
  | groups, kind :: kinds => groups.Within limit ∧ StayWithin limit (groups.after kind) kinds

instance decidableStayWithin (limit : Nat) :
    (groups : Groups) → (kinds : List TokenKind) → Decidable (StayWithin limit groups kinds)
  | groups, [] => inferInstanceAs (Decidable (groups.Within limit))
  | groups, kind :: kinds =>
      let _ := decidableStayWithin limit (groups.after kind) kinds
      inferInstanceAs (Decidable (groups.Within limit ∧ _))

/-- One state has no more open groups of either kind than another. -/
structure Fewer (groups other : Groups) : Prop where
  parens : groups.parens ≤ other.parens
  brackets : groups.brackets ≤ other.brackets

variable {limit : Nat} {groups other : Groups} {kinds : List TokenKind}

theorem Fewer.refl (groups : Groups) : groups.Fewer groups := ⟨Nat.le_refl _, Nat.le_refl _⟩

theorem Fewer.none (groups : Groups) : Groups.none.Fewer groups :=
  ⟨Nat.zero_le _, Nat.zero_le _⟩

theorem Within.none (limit : Nat) : Groups.none.Within limit := ⟨Nat.zero_le _, Nat.zero_le _⟩

/-- A token that does not close a group leaves no fewer open. -/
theorem fewer_after (groups : Groups) {kind : TokenKind} (notParen : kind ≠ .parenClose)
    (notBracket : kind ≠ .bracketClose) : groups.Fewer (groups.after kind) := by
  cases kind <;> first | contradiction | (constructor <;> simp only [Groups.after] <;> omega)

/-- Where no parenthesis is open, a closing one closes none. -/
theorem fewer_after_noParens (noParens : groups.parens = 0) {kind : TokenKind}
    (notBracket : kind ≠ .bracketClose) : groups.Fewer (groups.after kind) := by
  cases kind <;> first | contradiction | (constructor <;> simp only [Groups.after] <;> omega)

theorem StayWithin.within (stay : StayWithin limit groups kinds) : groups.Within limit := by
  cases kinds with
  | nil => exact stay
  | cons kind kinds => exact stay.1

/-- The same token leaves fewer groups open where fewer were open. -/
theorem Fewer.after (fewer : groups.Fewer other) (kind : TokenKind) :
    (groups.after kind).Fewer (other.after kind) := by
  obtain ⟨parens, brackets⟩ := fewer
  cases kind <;> constructor <;> simp only [Groups.after] <;> omega

theorem StayWithin.mono (stay : StayWithin limit other kinds) (fewer : groups.Fewer other) :
    StayWithin limit groups kinds := by
  induction kinds generalizing groups other with
  | nil =>
      exact ⟨Nat.le_trans fewer.parens stay.parens, Nat.le_trans fewer.brackets stay.brackets⟩
  | cons kind kinds ih =>
      constructor
      · exact ⟨Nat.le_trans fewer.parens stay.1.parens,
          Nat.le_trans fewer.brackets stay.1.brackets⟩
      · exact ih stay.2 (fewer.after kind)

theorem StayWithin.weaken {more : Nat} (stay : StayWithin limit groups kinds)
    (atMost : limit ≤ more) : StayWithin more groups kinds := by
  have wider : ∀ {groups : Groups}, groups.Within limit → groups.Within more := by
    intro groups within
    exact ⟨Nat.le_trans within.parens atMost, Nat.le_trans within.brackets atMost⟩
  induction kinds generalizing groups with
  | nil => exact wider stay
  | cons kind kinds ih => exact ⟨wider stay.1, ih stay.2⟩

end Groups

/-- A text nests at most `limit` parentheses and at most `limit` brackets. -/
def NestsWithin (limit : Nat) (text : String) : Prop :=
  Groups.StayWithin limit .none ((significant text).map Lexeme.kind)

theorem NestsWithin.weaken {limit more : Nat} {text : String} (nests : NestsWithin limit text)
    (atMost : limit ≤ more) : NestsWithin more text :=
  Groups.StayWithin.weaken nests atMost

instance (limit : Nat) (text : String) : Decidable (NestsWithin limit text) :=
  inferInstanceAs (Decidable (Groups.StayWithin limit .none _))

end PathCover.Token
