import ScriptSyntax.Proofs.Derivation.Derives
import ScriptSyntax.Proofs.Scan.Catalog

/-! Brackets. The tokens of a phrase open and close brackets in pairs of one family, and the end of
input is not among them. -/
namespace ScriptSyntax

namespace Kind

/-- The kind that closes what a kind opens. -/
def closer? : Kind → Option Kind
  | parOpen => some parClose
  | arrOpen | lArrOpen => some arrClose
  | scopeOpen => some scopeClose
  | setOpen => some setClose
  | undirOpen => some undirClose
  | dirOpen => some dirClose
  | _ => none

def isCloser (k : Kind) : Bool :=
  [parClose, arrClose, scopeClose, setClose, undirClose, dirClose].contains k

/-- Whether the kind is neither a bracket nor the end of input. -/
def isInner (k : Kind) : Bool :=
  k.closer? = none && !k.isCloser && k ≠ eof

/-- The kinds still awaited after a token of the kind, the next one first. Only the kind that is
awaited next may close, and no more is read after the end of input. -/
def nest : Kind → List Kind → Option (List Kind)
  | parOpen, awaited => some (parClose :: awaited)
  | arrOpen, awaited | lArrOpen, awaited => some (arrClose :: awaited)
  | scopeOpen, awaited => some (scopeClose :: awaited)
  | setOpen, awaited => some (setClose :: awaited)
  | undirOpen, awaited => some (undirClose :: awaited)
  | dirOpen, awaited => some (dirClose :: awaited)
  | parClose, parClose :: awaited | arrClose, arrClose :: awaited
  | scopeClose, scopeClose :: awaited | setClose, setClose :: awaited
  | undirClose, undirClose :: awaited | dirClose, dirClose :: awaited => some awaited
  | parClose, _ | arrClose, _ | scopeClose, _ | setClose, _ | undirClose, _ | dirClose, _
  | eof, _ => none
  | _, awaited => some awaited

theorem nest_of_isInner {k : Kind} (inner : k.isInner = true) (awaited : List Kind) :
    k.nest awaited = some awaited := by
  cases k <;> first | rfl | contradiction

end Kind

/-- The kinds still awaited after the tokens. -/
def nest : List Token → List Kind → Option (List Kind)
  | [], awaited => some awaited
  | t :: ts, awaited => (t.kind.nest awaited).bind (nest ts)

/-- Whether the tokens close what they open, and nothing else. -/
def Nested (ts : List Token) : Prop := ∀ awaited, nest ts awaited = some awaited

@[simp] theorem nest_nil (awaited : List Kind) : nest [] awaited = some awaited := rfl

@[simp] theorem nest_cons (t : Token) (ts : List Token) (awaited : List Kind) :
    nest (t :: ts) awaited = (t.kind.nest awaited).bind (nest ts) := rfl

@[simp] theorem nest_append (ts us : List Token) (awaited : List Kind) :
    nest (ts ++ us) awaited = (nest ts awaited).bind (nest us) := by
  induction ts generalizing awaited with
  | nil => rfl
  | cons t rest ih =>
    simp only [List.cons_append, nest_cons, Option.bind_assoc]
    exact congrArg _ (funext ih)

/-- Whether brackets match is told by the kinds. -/
theorem nest_congr {ts us : List Token} (same : us.map Token.kind = ts.map Token.kind)
    (awaited : List Kind) : nest us awaited = nest ts awaited := by
  induction ts generalizing us awaited with
  | nil => rw [List.map_eq_nil_iff.mp same]
  | cons t ts ih =>
    obtain ⟨u, us, rfl, first, rest⟩ := List.map_eq_cons_iff.mp same
    rw [nest_cons, nest_cons, first]
    exact congrArg _ (funext (ih rest))

theorem Nested.of_append {ts us : List Token} (first : Nested ts) (both : Nested (ts ++ us)) :
    Nested us := by
  intro awaited
  have read := both awaited
  rwa [nest_append, first, Option.bind_some] at read

/-- What begins with balanced tokens and a `)` is not balanced. -/
theorem Nested.not_close {ts us : List Token} {t : Token} (nested : Nested ts)
    (closes : t.kind = .parClose) : ¬ Nested (ts ++ t :: us) := by
  intro both
  have read := both []
  rw [nest_append, nested, Option.bind_some, nest_cons, closes] at read
  cases read

theorem Nested.not_eof {ts : List Token} (nested : Nested ts) : ∀ t ∈ ts, t.kind ≠ .eof := by
  have fails (ts : List Token) (awaited result : List Kind)
      (read : nest ts awaited = some result) : ∀ t ∈ ts, t.kind ≠ .eof := by
    induction ts generalizing awaited with
    | nil => simp
    | cons u rest ih =>
      rw [nest_cons, Option.bind_eq_some_iff] at read
      obtain ⟨later, first, read⟩ := read
      refine List.forall_mem_cons.mpr ⟨fun eof => ?_, ih later read⟩
      rw [eof] at first
      exact absurd first (by simp [Kind.nest])
  exact fails ts [] [] (nested [])

theorem nested_of_inner {ts : List Token} (inner : ∀ t ∈ ts, t.kind.isInner = true) :
    Nested ts := by
  intro awaited
  induction ts with
  | nil => rfl
  | cons t rest ih =>
    obtain ⟨first, others⟩ := List.forall_mem_cons.mp inner
    rw [nest_cons, Kind.nest_of_isInner first, Option.bind_some, ih others]

theorem isBinaryOperator_of_joinsOperands {stops : List Kind} {k : Kind}
    (joins : joinsOperands stops k = true) : k.isBinaryOperator = true := by
  simp only [joinsOperands, Bool.and_eq_true] at joins
  exact joins.1.1

theorem isInner_of_atomShape? {k : Kind} {shape : Shape NodeId}
    (atom : Grammar.atomShape? k = some shape) : k.isInner = true :=
  Kind.of_all (P := fun k => (Grammar.atomShape? k).isSome) rfl (by simp [atom])

theorem isInner_of_ofShorthand? {k : Kind} {container : Container}
    (shorthand : Container.ofShorthand? k = some container) : k.isInner = true :=
  Kind.of_all (P := Grammar.abbreviatesContainer) rfl
    (by simp [Grammar.abbreviatesContainer, shorthand])

/-- The tokens of a phrase close the brackets that they open. -/
theorem Derives.nested {y : Yield} {p : Phrase y} {ts : List Token} {next : Token} {r : y.Result}
    (derives : Derives p ts next r) : Nested ts := by
  have optional {k : Kind} (inner : k.isInner = true) {o : Option Token}
      (same : ∀ t ∈ o, t.kind = k) : Nested o.toList :=
    nested_of_inner fun t member => by rwa [same t (Option.mem_toList.mp member)]
  unfold Nested at *
  induction derives with
  | word member =>
    intro awaited
    simp only [wordShapes, List.mem_cons, Prod.mk.injEq, List.not_mem_nil, or_false] at member
    rcases member with ⟨kind, -⟩ | ⟨kind, -⟩ | ⟨kind, -⟩ <;>
      simp only [nest_cons, nest_nil, Option.bind_some, Kind.nest, kind]
  | modifiers all => exact nested_of_inner fun m member => Kind.of_all rfl (all m member)
  | typed mark _ name _ modifiers types =>
    intro awaited
    simp only [nest_append, nest_cons, Option.bind_some, optional rfl mark, Kind.nest, name,
      modifiers, types]
  | untyped mark _ name modifiers =>
    intro awaited
    simp only [nest_append, nest_cons, nest_nil, Option.bind_some, optional rfl mark, Kind.nest,
      name, modifiers]
  | access mark _ operand =>
    intro awaited
    simp only [nest_append, Option.bind_some, optional rfl mark, operand]
  | bound _ assigns _ first last | assigned _ assigns _ first last
  | declaredAssigned _ assigns _ first last =>
    intro awaited
    simp only [nest_append, nest_cons, Option.bind_some,
      Kind.nest_of_isInner (Kind.of_all rfl assigns), first, last]
  | binary _ joins _ first last =>
    intro awaited
    have inner : Kind.isInner _ = true := Kind.of_all rfl (isBinaryOperator_of_joinsOperands joins)
    simp only [nest_append, nest_cons, Option.bind_some, Kind.nest_of_isInner inner, first, last]
  | atom atom =>
    intro awaited
    simp only [nest_cons, nest_nil, Option.bind_some,
      Kind.nest_of_isInner (isInner_of_atomShape? atom)]
  | leading leads _ operand =>
    intro awaited
    have inner : Kind.isInner _ = true := Kind.of_all rfl (List.contains_iff_mem.mpr leads)
    simp only [nest_cons, Option.bind_some, Kind.nest_of_isInner inner,
      operand]
  | trailing _ trails operand =>
    intro awaited
    have inner : Kind.isInner _ = true := Kind.of_all rfl (List.contains_iff_mem.mpr trails)
    simp only [nest_append, nest_cons, nest_nil, Option.bind_some,
      Kind.nest_of_isInner inner, operand]
  | rounding _ round atom operand =>
    intro awaited
    have inner : Kind.round.isInner = true := rfl
    simp only [nest_append, nest_cons, nest_nil, Option.bind_some, round,
      Kind.nest_of_isInner inner, Kind.nest_of_isInner (isInner_of_atomShape? atom), operand]
  | shorthand shorthand =>
    intro awaited
    simp only [nest_cons, nest_nil, Option.bind_some,
      Kind.nest_of_isInner (isInner_of_ofShorthand? shorthand)]
  | namedType star names =>
    intro awaited
    simp only [nest_append, nest_cons, nest_nil, Option.bind_some, optional rfl star,
      Kind.nest_of_isInner (Kind.of_all rfl names)]
  | shorthandType star shorthand =>
    intro awaited
    simp only [nest_append, nest_cons, nest_nil, Option.bind_some, optional rfl star,
      Kind.nest_of_isInner (isInner_of_ofShorthand? shorthand)]
  | @containerType container _ _ _ _ _ _ star opens _ closes types =>
    intro awaited
    have opens := opener_of_ofOpener? opens
    cases container <;>
      simp only [nest_append, nest_cons, nest_nil, Option.bind_some, optional rfl star, Kind.nest,
        Container.opener, Container.closer, *]
  | record kind | get _ kind =>
    intro awaited
    rcases kind with kind | kind <;>
      simp only [nest_append, nest_cons, Option.bind_some, Kind.nest, *]
  | emptyList kind | list kind | range kind =>
    intro awaited
    rcases kind with kind | kind <;>
      simp only [nest_append, nest_cons, nest_nil, Option.bind_some, Kind.nest, *]
  | edge _ kind =>
    intro awaited
    rcases kind with kind | ⟨-, kind⟩ <;>
      simp only [nest_append, nest_cons, Option.bind_some, Kind.nest, *]
  | _ =>
    intro awaited
    simp only [nest_append, nest_cons, nest_nil, Option.bind_some, Kind.nest, *]

end ScriptSyntax
