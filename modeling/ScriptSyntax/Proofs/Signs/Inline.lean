import ScriptSyntax.Proofs.Derivation.Derives
import ScriptSyntax.Proofs.Scan.Catalog

/-! A term that ends in a `>` ends in a name with types after it. -/
namespace ScriptSyntax

/-- The tokens end in those of a name with types after it, as in `x<int>`. -/
def EndsInline (ts : List Token) (next : Token) : Prop :=
  ∃ us stops t, us <:+ ts ∧ Derives (.inline stops) us next t

/-- A `>` at the end of the tokens closes the types of a name. -/
def ClosesInline (ts : List Token) (next : Token) : Prop :=
  ∀ t ∈ ts.getLast?, t.kind = .greaterThan → EndsInline ts next

variable {ts us : List Token} {t next : Token}

namespace ClosesInline

theorem snoc (other : t.kind ≠ .greaterThan) : ClosesInline (ts ++ [t]) next := by
  intro u last greater
  rw [List.getLast?_concat] at last
  cases last
  exact absurd greater other

theorem single (other : t.kind ≠ .greaterThan) : ClosesInline [t] next :=
  @snoc [] t next other

theorem append (closes : ClosesInline us next) (some : us ≠ []) :
    ClosesInline (ts ++ us) next := by
  intro u last greater
  rw [List.getLast?_append_of_ne_nil _ some] at last
  obtain ⟨vs, stops, r, ends, derives⟩ := closes u last greater
  exact ⟨vs, stops, r, ends.trans (List.suffix_append ..), derives⟩

/-- Nothing may stand after the token. -/
theorem after (closes : ClosesInline us next) (other : t.kind ≠ .greaterThan) :
    ClosesInline (ts ++ t :: us) next := by
  rcases us with - | ⟨u, us⟩
  · exact snoc other
  · rw [List.append_cons]
    exact closes.append (by simp)

theorem cons (closes : ClosesInline us next) (other : t.kind ≠ .greaterThan) :
    ClosesInline (t :: us) next :=
  @after [] us t next closes other

end ClosesInline

/-- Phrases that a term may end with, and that take a token. -/
def Phrase.takesLast {y : Yield} : Phrase y → Bool
  | term _ | operand | chain _ | inline _ | group | name | property | collection | braced
  | memberBody => true
  | _ => false

/-- Phrases that a term may end with. -/
def Phrase.endsTerm {y : Yield} : Phrase y → Bool
  | expression .. | funcBody _ => true
  | p => p.takesLast

theorem Derives.ne_nil {y : Yield} {p : Phrase y} {r : y.Result} (derives : Derives p ts next r)
    (takes : p.takesLast = true) : ts ≠ [] := by
  induction derives <;> simp_all [Phrase.takesLast]

/-- What a term ends with is a `>` only where it is a name with types. -/
theorem Derives.closesInline {y : Yield} {p : Phrase y} {r : y.Result}
    (derives : Derives p ts next r) (ends : p.endsTerm = true) : ClosesInline ts next := by
  have apart {ks : List Kind} {u : Token} (plain : Kind.greaterThan ∉ ks) (among : u.kind ∈ ks) :
      u.kind ≠ .greaterThan := fun greater => plain (greater ▸ among)
  induction derives with
  | emptyBraces kind | emptyMembers kind | name kind => exact .single (by simp [kind])
  | braces _ _ closer | memberBraces _ _ closer | group _ _ closer | set _ _ closer
  | map _ _ _ closer | undirectedGraph _ _ _ closer | directedGraph _ _ _ closer
  | list _ _ _ closer | range _ _ _ _ _ closer | index _ _ _ closer
  | slice _ _ _ _ _ _ closer | call _ _ _ closer | enumeration _ _ _ _ _ _ closer =>
    exact .snoc (by simp [closer])
  | @emptyList opener closer _ _ _ closes =>
    exact @ClosesInline.snoc [opener] closer _ (by simp [closes])
  | shorthand short =>
    refine .single fun greater => ?_
    rw [greater] at short
    contradiction
  | atom atom =>
    refine .single fun greater => ?_
    rw [greater] at atom
    cases atom
  | rounding _ round atom =>
    refine ClosesInline.after (.single fun greater => ?_) (by simp [round])
    rw [greater] at atom
    cases atom
  | trailing _ trails => exact .snoc (apart (by decide) trails)
  | deref _ mark => exact .snoc (by simp [mark])
  | empty => exact fun _ last => by simp at last
  | inline chain name unfrozen types =>
    exact fun _ _ _ => ⟨_, _, _, List.suffix_rfl, .inline (i := 0) chain name unfrozen types⟩
  | settled _ _ ih | declared _ ih | first _ ih | simple _ ih | grouped _ ih | container _ ih
  | nameProperty _ ih | groupProperty _ ih | bracedFunc _ ih | valueFunc _ ih => exact ih rfl
  | assigned _ assigns _ _ ih | declaredAssigned _ assigns _ _ ih =>
    exact (ih rfl).after (apart (by decide) (List.contains_iff_mem.mp assigns))
  | binary _ _ right _ ih =>
    rw [List.append_cons]
    exact (ih rfl).append (right.ne_nil rfl)
  | ternary _ _ _ _ colon _ _ _ ih => exact (ih rfl).after (by simp [colon])
  | pointer mark _ ih => exact (ih rfl).cons (by simp [mark])
  | leading leads _ ih => exact (ih rfl).cons (apart (by decide) leads)
  | plus op _ ih => exact (ih rfl).cons (by simp [op])
  | get _ dot _ _ ih =>
    refine (ih rfl).after ?_
    rcases dot with dot | dot <;> simp [dot]
  | func _ _ _ _ arrow _ _ ih | interface _ _ _ _ arrow _ _ ih =>
    rw [List.append_cons]
    exact (ih rfl).after (by simp [arrow])
  | record _ _ body _ ih => exact (ih rfl).append (body.ne_nil rfl)
  | _ => exact nomatch ends

end ScriptSyntax
