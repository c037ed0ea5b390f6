import Mathlib.Data.List.Chain
import ScriptSyntax.Proofs.Derivation.Nesting
import ScriptSyntax.Proofs.Reading.Carried
import ScriptSyntax.Scanner.Reading

/-! Which tokens of a source a tree may leave out, and where. Separators stand for nothing that a
node carries. A plus may go where an operand is awaited, in front of a term, and the marks and stars
of types in a list of types, so that an operator between two operands is never left out. -/
namespace ScriptSyntax

/-- Kinds of tokens that end, part or enclose what the nodes carry. -/
def separators : List Kind :=
  [.eol, .eof, .comma, .colon, .direct, .atSign, .parOpen, .parClose, .arrClose, .scopeOpen,
    .scopeClose, .setClose, .undirClose, .dirClose, .mapType, .elseKw]

/-- Whether a token of the kind can be the last of an operand: one after which the scanner takes a
minus for an operator, or a backquote, which rounds what is before it. -/
def Kind.closesOperand (k : Kind) : Bool := Scanner.endsOperand k || k = .round

/-- Token lists after which an operand is awaited. An operator that applies to what is before it or
to what is after it applies to what is after it where an operand is awaited already. -/
inductive Awaits : List Token → Prop where
  | start : Awaits []
  | behind {ts : List Token} {t : Token} (goesOn : t.kind.closesOperand = false) :
      Awaits (ts ++ [t])
  | leading {ts : List Token} {t : Token} (leads : t.kind ∈ leadingOperators)
      (awaited : Awaits ts) : Awaits (ts ++ [t])
  | statement {ts us : List Token} {next : Token} {b : Tree}
      (derives : Derives .statement us next b) : Awaits (ts ++ us)

/-- Whether the tokens, standing where they do, are a part of a list of types. -/
def WithinTypes (before ts after : List Token) : Prop :=
  ∃ us vs next types, us <:+ before ∧ vs <+: after ∧
    Derives .typeList (us ++ ts ++ vs) next types

/-- A token that may be left out where it stands. Of a plus in front of a term nothing stays, and
the star of a type is kept as a flag. -/
inductive Lost (before : List Token) (t : Token) (after : List Token) : Prop where
  | separator (parts : t.kind ∈ separators)
  | sign (plus : t.kind = .add) (awaited : Awaits before)
      (ahead : ∃ stops us next r, us <+: after ∧ Derives (.term stops) us next r)
  | typeMark (mark : t.kind ∈ [.lessThan, .greaterThan, .multiply])
      (within : WithinTypes before [t] after)

variable {k : Kind} {t next : Token} {c : Token} {o : Option Token}
  {before after cs ds ts us : List Token}

namespace Awaits

theorem of_kind (same : t.kind = k) (goesOn : k.closesOperand = false) : Awaits (ts ++ [t]) :=
  .behind (same ▸ goesOn)

theorem of_either {m : Kind} (either : t.kind = k ∨ t.kind = m)
    (first : k.closesOperand = false) (second : m.closesOperand = false) : Awaits (ts ++ [t]) :=
  either.elim (of_kind · first) (of_kind · second)

theorem of_joint {stops : List Kind} (joins : joinsOperands stops t.kind = true) :
    Awaits (ts ++ [t]) := by
  have joint := isBinaryOperator_of_joinsOperands joins
  have goesOn := Kind.of_all (Q := (!·.closesOperand)) rfl joint
  exact .behind (by simpa using goesOn)

theorem of_assigner (assigns : Grammar.assigners.contains t.kind = true) :
    Awaits (ts ++ [t]) := by
  have goesOn := Kind.of_all (Q := (!·.closesOperand)) rfl assigns
  exact .behind (by simpa using goesOn)

end Awaits

/-- Whether the last of the tokens ends a statement. -/
def EndsStatement (ts : List Token) : Prop :=
  ∃ us t, ts = us ++ [t] ∧ t.kind ∈ [.eol, .scopeClose, .mapType]

namespace EndsStatement

theorem snoc (ends : t.kind ∈ [.eol, .scopeClose, .mapType]) : EndsStatement (ts ++ [t]) :=
  ⟨ts, t, rfl, ends⟩

theorem append (ends : EndsStatement us) : EndsStatement (ts ++ us) := by
  obtain ⟨vs, t, rfl, ends⟩ := ends
  rw [← List.append_assoc]
  exact snoc ends

theorem cons (ends : EndsStatement ts) : EndsStatement (t :: ts) :=
  @append [t] ts ends

theorem append_more (ends : EndsStatement ts) (more : us = [] ∨ EndsStatement us) :
    EndsStatement (ts ++ us) := by
  rcases more with rfl | more
  · rwa [List.append_nil]
  · exact more.append

end EndsStatement

/-- How a phrase ends that is or ends a statement. -/
def Phrase.Ends (ts : List Token) : {y : Yield} → Phrase y → Prop
  | _, statement | _, body | _, braced | _, branch | _, branches => EndsStatement ts
  | _, otherwise | _, catches => ts = [] ∨ EndsStatement ts
  | _, _ => True

/-- A statement ends with a `;`, or with the braces of its last body. -/
theorem Derives.ends {y : Yield} {p : Phrase y} {r : y.Result} (derives : Derives p ts next r) :
    p.Ends ts := by
  induction derives with
  | plain _ semi => exact .snoc (by simp [semi])
  | emptyBraces empty => exact @EndsStatement.snoc _ [] (by simp [empty])
  | braces _ _ closes => exact .snoc (by simp [closes])
  | conditional _ _ body | bracedBody _ body | singleBody _ body | lastBranch _ body => exact body
  | loop _ _ _ _ _ _ _ _ _ body more =>
    rw [Phrase.Ends, List.append_assoc]
    exact (body.append_more more).cons.cons.append
  | switch _ _ _ _ _ closes _ _ _ more =>
    rw [Phrase.Ends, List.append_cons]
    exact (EndsStatement.snoc (by simp [closes])).append_more more
  | guarded _ _ _ _ body catches more => exact (body.cons.append_more catches).append_more more
  | noOtherwise | noCatches => exact .inl rfl
  | otherwise _ _ _ body => exact .inr body.cons.cons
  | branch _ _ _ _ _ body => exact body.cons.append
  | elseBranch _ _ _ _ _ last => exact last.cons.cons.append
  | moreBranches _ _ _ _ rest => exact rest.cons.append
  | moreCatches _ _ _ _ _ body more => exact .inr (body.append.append_more more)
  | _ => trivial

/-- What an operand is awaited behind ends none, unless it may do either. -/
theorem Awaits.goesOn (awaited : Awaits (ts ++ [t])) :
    t.kind.closesOperand = false ∨
      t.kind ∈ [.increment, .decrement, .scopeClose, .mapType] := by
  generalize split : ts ++ [t] = whole at awaited
  cases awaited with
  | start => simp at split
  | behind goesOn =>
    obtain ⟨-, rfl⟩ := List.append_singleton_inj.mp split
    exact .inl goesOn
  | leading leads =>
    obtain ⟨-, rfl⟩ := List.append_singleton_inj.mp split
    simp only [leadingOperators, List.mem_cons, List.not_mem_nil, or_false] at leads
    rcases leads with is | is | is | is | is <;>
    · rw [is]
      decide
  | statement derives =>
    obtain ⟨vs, u, rfl, ends⟩ := derives.ends
    rw [← List.append_assoc] at split
    obtain ⟨-, rfl⟩ := List.append_singleton_inj.mp split
    simp only [List.mem_cons, List.not_mem_nil, or_false] at ends
    rcases ends with is | is | is <;>
    · rw [is]
      decide

namespace WithinTypes

theorem front (within : WithinTypes before (ts ++ us) after) :
    WithinTypes before ts (us ++ after) := by
  obtain ⟨vs, ws, next, types, behind, ahead, derives⟩ := within
  refine ⟨vs, us ++ ws, next, types, behind, (List.prefix_append_right_inj us).mpr ahead, ?_⟩
  simpa using derives

theorem back (within : WithinTypes before (ts ++ us) after) :
    WithinTypes (before ++ ts) us after := by
  obtain ⟨vs, ws, next, types, behind, ahead, derives⟩ := within
  refine ⟨vs ++ ts, ws, next, types, ?_, ahead, ?_⟩
  · obtain ⟨rest, rfl⟩ := behind
    exact ⟨rest, by simp⟩
  · simpa using derives

theorem head (within : WithinTypes before (t :: ts) after) : WithinTypes before [t] (ts ++ after) :=
  @front before after [t] ts within

theorem tail (within : WithinTypes before (t :: ts) after) : WithinTypes (before ++ [t]) ts after :=
  @back before after [t] ts within

theorem of_typeList {types : List TypeTerm} (derives : Derives .typeList ts next types) :
    WithinTypes before ts after :=
  ⟨[], [], next, types, List.nil_suffix, List.nil_prefix, by simpa using derives⟩

end WithinTypes

/-- A star that stands right behind a token applies to what is after it. -/
def StarLeads (u t : Token) : Prop := t.kind = .multiply → u.kind.closesOperand = false

namespace StarLeads

variable {first : Token}

theorem marked (goesOn : first.kind.closesOperand = false) (star : ∀ m ∈ o, m.kind = .multiply) :
    (first :: o.toList).IsChain StarLeads := by
  cases o <;> simp [StarLeads, goesOn]

theorem past (front : (first :: ts).IsChain StarLeads) (other : t.kind ≠ .multiply)
    (behind : (t :: us).IsChain StarLeads) : (first :: (ts ++ t :: us)).IsChain StarLeads := by
  rw [← List.cons_append, List.isChain_append]
  refine ⟨front, behind, fun u _ v head => ?_⟩
  obtain rfl := Option.some.inj head
  exact fun star => absurd star other

end StarLeads

/-- How the stars stand in types, where one may come first. -/
def Phrase.StarsLead (ts : List Token) : {y : Yield} → Phrase y → Prop
  | _, typeList => ts.IsChain StarLeads
  | _, type | _, types =>
    ∀ first : Token, first.kind.closesOperand = false → (first :: ts).IsChain StarLeads
  | _, _ => True

theorem Derives.starsLead {y : Yield} {p : Phrase y} {r : y.Result}
    (derives : Derives p ts next r) : p.StarsLead ts := by
  induction derives with
  | namedType star names =>
    intro first goesOn
    refine StarLeads.past (StarLeads.marked goesOn star) (fun same => ?_) (.singleton _)
    rw [same] at names
    cases names
  | shorthandType star found =>
    intro first goesOn
    refine StarLeads.past (StarLeads.marked goesOn star) (fun same => ?_) (.singleton _)
    rw [same] at found
    cases found
  | @containerType container _ _ _ _ _ _ star opens _ closes types =>
    intro first goesOn
    have opens := opener_of_ofOpener? opens
    have inner := StarLeads.past (types _ (by rw [opens]; cases container <;> rfl))
      (by rw [closes]; cases container <;> nofun) (.singleton _)
    have other : container.opener ≠ .multiply := by cases container <;> nofun
    simpa using StarLeads.past (StarLeads.marked goesOn star) (opens ▸ other) inner
  | lastType _ inner => exact inner
  | moreTypes _ comma _ first rest =>
    intro before goesOn
    exact StarLeads.past (first before goesOn) (by simp [comma]) (rest _ (by rw [comma]; rfl))
  | typeList opens _ closes inner =>
    exact StarLeads.past (inner _ (by rw [opens]; rfl)) (by simp [closes]) (.singleton _)
  | _ => trivial

/-- A star within a list of types is behind no operand, since it is not what the list opens with. -/
theorem WithinTypes.leads {u : Token} (within : WithinTypes (ts ++ [u]) [t] after)
    (star : t.kind = .multiply) : u.kind.closesOperand = false := by
  obtain ⟨us, vs, next, types, ⟨front, behind⟩, -, derives⟩ := within
  have chain : List.IsChain StarLeads _ := derives.starsLead
  rcases List.eq_nil_or_concat us with rfl | ⟨ws, w, rfl⟩
  · generalize whole : [] ++ [t] ++ vs = ts at derives
    cases derives with
    | typeList opens =>
      obtain rfl := (List.cons.inj whole).1
      simp [star] at opens
  · rw [List.concat_eq_append, ← List.append_assoc] at behind
    obtain ⟨-, rfl⟩ := List.append_singleton_inj.mp behind
    simp only [List.concat_eq_append, List.append_assoc, List.cons_append, List.nil_append] at chain
    exact (List.isChain_append_cons_cons.mp chain).2.1 star

/-- A plus or a star that is lost stands behind nothing that can only end an operand, so it is not
between two operands. -/
theorem Lost.leads {u : Token} (lost : Lost (ts ++ [u]) t after)
    (operator : t.kind = .add ∨ t.kind = .multiply) :
    u.kind.closesOperand = false ∨
      u.kind ∈ [.increment, .decrement, .scopeClose, .mapType] := by
  cases lost with
  | separator parts => rcases operator with is | is <;> simp [is, separators] at parts
  | sign _ awaited => exact awaited.goesOn
  | typeMark mark within =>
    have star : t.kind = .multiply := operator.resolve_left fun is => by simp [is] at mark
    exact .inl (within.leads star)

/-- The carried tokens are those between `before` and `after` without some that may be lost where
they stand. -/
inductive Accounts (after : List Token) : List Token → List Token → List Token → Prop where
  | nil {before : List Token} : Accounts after before [] []
  | keep {before cs ts : List Token} {c t : Token} (same : c.written = t)
      (rest : Accounts after (before ++ [t]) cs ts) : Accounts after before (c :: cs) (t :: ts)
  | lose {before cs ts : List Token} {t : Token} (lost : Lost before t (ts ++ after))
      (rest : Accounts after (before ++ [t]) cs ts) : Accounts after before cs (t :: ts)

namespace Accounts

theorem carry (same : t.kind = k) (own : k.written = k)
    (rest : Accounts after (before ++ [t]) cs ts) : Accounts after before (t :: cs) (t :: ts) :=
  .keep (Token.written_of_kind (by rw [same, own])) rest

theorem drop (same : t.kind = k) (parts : separators.contains k = true)
    (rest : Accounts after (before ++ [t]) cs ts) : Accounts after before cs (t :: ts) :=
  .lose (.separator (same ▸ List.contains_iff_mem.mp parts)) rest

theorem carry_all (own : ∀ t ∈ ts, t.kind.written = t.kind) : Accounts after before ts ts := by
  induction ts generalizing before with
  | nil => exact .nil
  | cons t rest ih =>
    obtain ⟨first, others⟩ := List.forall_mem_cons.mp own
    exact carry rfl first (ih others)

theorem carry_option (same : ∀ t ∈ o, t.kind = k) (own : k.written = k) :
    Accounts after before o.toList o.toList :=
  carry_all fun t member => by rw [same t (Option.mem_toList.mp member), own]

theorem drop_option (same : ∀ t ∈ o, t.kind = k) (parts : separators.contains k = true) :
    Accounts after before [] o.toList := by
  cases o with
  | none => exact .nil
  | some t => exact drop (same t rfl) parts .nil

/-- A star in front of a type. -/
theorem drop_star (star : ∀ t ∈ o, t.kind = .multiply)
    (within : WithinTypes before (o.toList ++ ts) after) :
    Accounts (ts ++ after) before [] o.toList := by
  cases o with
  | none => exact .nil
  | some t => exact .lose (.typeMark (by simp [star t rfl]) within.head) .nil

theorem append (first : Accounts (us ++ after) before cs ts)
    (second : Accounts after (before ++ ts) ds us) :
    Accounts after before (cs ++ ds) (ts ++ us) := by
  induction first with
  | nil => simpa using second
  | keep same _ ih => exact .keep same (ih (by simpa using second))
  | lose lost _ ih =>
    rw [← List.append_assoc] at lost
    exact .lose lost (ih (by simpa using second))

theorem sublist (accounts : Accounts after before cs ts) : (cs.map Token.written).Sublist ts := by
  induction accounts with
  | nil => exact .slnil
  | keep same _ ih => exact same ▸ ih.cons_cons _
  | lose _ _ ih => exact ih.cons _

theorem written_mem (accounts : Accounts after before cs ts) (member : c ∈ cs) :
    c.written ∈ ts :=
  accounts.sublist.subset (List.mem_map_of_mem member)

/-- What is missing was lost where it stands. -/
theorem lost_of_missing (accounts : Accounts after before cs ts) (split : ts = us ++ t :: ds)
    (missing : t ∉ cs.map Token.written) : Lost (before ++ us) t (ds ++ after) := by
  induction accounts generalizing us with
  | nil => simp at split
  | keep same _ ih =>
    rw [List.map_cons, List.mem_cons, not_or, same] at missing
    rcases us with - | ⟨u, us⟩
    · exact absurd (List.cons.inj split).1.symm missing.1
    · obtain ⟨rfl, rest⟩ := List.cons.inj split
      simpa using ih rest missing.2
  | lose lost _ ih =>
    rcases us with - | ⟨u, us⟩
    · obtain ⟨rfl, rfl⟩ := List.cons.inj split
      simpa using lost
    · obtain ⟨rfl, rest⟩ := List.cons.inj split
      simpa using ih rest missing

end Accounts

end ScriptSyntax
