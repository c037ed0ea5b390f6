import ScriptSyntax.Proofs.Derivation.Object

/-! Lists, ranges, sets, maps and graphs derive what they stand for. -/
namespace ScriptSyntax.Grammar

open Parse

variable {depth : Nat} {start : Point} {c : Cursor} {s : Scanner} {base : List Token}
  {forest : List Tree}

theorem step?_sound (sound : Sound depth) (here : c.At s base forest) (close : Kind) :
    Ensures depth start (step? close) c fun o c' => ∃ ts t, o = Option.map Tree.id t ∧
      Derives (.step close) ts c'.current t.toList ∧ c'.At s (base ++ ts) (forest ++ t.toList) := by
  refine (here.accept .colon).bind ?_
  rintro _ c₁ (⟨colon, rfl, here⟩ | ⟨-, rfl, rfl⟩)
  · refine (sound.call (.expression [close] false) here).bind ?_
    rintro _ c₂ ⟨ts, t, rfl, value, here⟩
    exact .pure ⟨_, some t, rfl, .step colon value, by simpa using here⟩
  · exact .pure ⟨_, none, rfl, .noStep, by simpa using here⟩

/-- The kind that opens a list. -/
def listOpener (linked : Bool) : Kind := if linked then .lArrOpen else .arrOpen

theorem map_ofList (linked : Bool) (items : List Tree) :
    listShape linked (items.map Tree.id) =
      (Shape.ofList (listOpener linked) items).map Tree.id := by
  cases linked <;> rfl

theorem map_ofRange (linked : Bool) (first stop : Tree) (step : Option Tree) :
    rangeShape linked first.id stop.id (step.map Tree.id) =
      (Shape.ofRange (listOpener linked) first stop step).map Tree.id := by
  cases linked <;> rfl

theorem children_ofList (k : Kind) (items : List Tree) :
    (Shape.ofList k items).children = items := by
  unfold Shape.ofList
  split <;> rfl

theorem children_ofRange (k : Kind) (first stop : Tree) (step : Option Tree) :
    (Shape.ofRange k first stop step).children = first :: stop :: step.toList := by
  unfold Shape.ofRange
  split <;> rfl

theorem list_sound (sound : Sound depth) (here : c.At s base forest) {linked : Bool}
    (opens : c.current.kind = listOpener linked) :
    Ensures depth start (list linked) c fun i c' => c'.Has s base forest .collection i := by
  have opener : c.current.kind = .arrOpen ∨ c.current.kind = .lArrOpen := by
    rw [opens]
    cases linked <;> simp [listOpener]
  refine here.shift.bind ?_
  rintro token c₁ ⟨rfl, here⟩
  refine (here.accept .arrClose).bind ?_
  rintro _ c₂ (⟨closes, rfl, here⟩ | ⟨-, rfl, rfl⟩)
  · refine (here.add forest (.ofList c.current.kind []) (opens ▸ map_ofList linked [])
      (by simp [children_ofList])).imp ?_
    rintro i c₃ ⟨-, here⟩
    exact ⟨_, _, rfl, .emptyList opener closes, by simpa using here⟩
  refine (sound.call (.expression [.comma, .direct, .arrClose] false) here).bind ?_
  rintro _ c₃ ⟨ts, x, rfl, first, here⟩
  refine (here.accept .direct).bind ?_
  rintro _ c₄ (⟨direct, rfl, here⟩ | ⟨-, rfl, rfl⟩)
  · refine (sound.call (.expression [.colon, .arrClose] false) here).bind ?_
    rintro _ c₅ ⟨us, z, rfl, stop, here⟩
    refine (step?_sound sound here .arrClose).bind ?_
    rintro _ c₆ ⟨os, o, rfl, step, here⟩
    refine (here.expect .arrClose).bind ?_
    rintro closer c₇ ⟨rfl, closes, here⟩
    refine (here.add forest (.ofRange c.current.kind x z o) (opens ▸ map_ofRange linked x z o)
      (by simp [children_ofRange])).imp ?_
    rintro i c₈ ⟨-, here⟩
    exact ⟨_, _, rfl, .range opener first direct stop step closes, by simpa using here⟩
  · have close (d : Cursor) (us : List Token) (xs : List Tree)
        (others : Derives .others us d.current xs)
        (here : d.At s (base ++ c.current :: (ts ++ us)) (forest ++ x :: xs)) :
        Ensures depth start (do
          let _ ← expect .arrClose
          Parse.add (listShape linked (x.id :: xs.map Tree.id)) (some c.current)) d fun i c' =>
            c'.Has s base forest .collection i := by
      refine (here.expect .arrClose).bind ?_
      rintro closer e ⟨rfl, closes, here⟩
      refine (here.add forest (.ofList c.current.kind (x :: xs))
        (opens ▸ map_ofList linked (x :: xs)) (by simp [children_ofList])).imp ?_
      rintro i c' ⟨-, here⟩
      exact ⟨_, _, rfl, .list opener first others closes, by simpa using here⟩
    refine (here.accept .comma).bind ?_
    rintro _ c₅ (⟨comma, rfl, here⟩ | ⟨-, rfl, rfl⟩)
    · refine (sound.call (.items [.arrClose] (.expression false)) here).bind ?_
      rintro _ c₆ ⟨us, xs, rfl, items, here⟩
      exact close c₆ _ xs (.others comma items) (by simpa using here)
    · exact close _ [] [] .noOthers (by simpa using here)

theorem set_sound (sound : Sound depth) (here : c.At s base forest)
    (opens : c.current.kind = .setOpen) :
    Ensures depth start set c fun i c' => c'.Has s base forest .collection i := by
  refine here.shift.bind ?_
  rintro token c₁ ⟨rfl, here⟩
  refine (sound.call (.items [.setClose] (.expression false)) here).bind ?_
  rintro _ c₂ ⟨ts, xs, rfl, items, here⟩
  refine (here.expect .setClose).bind ?_
  rintro closer c₃ ⟨rfl, closes, here⟩
  refine (here.add forest (.set xs) rfl rfl).imp ?_
  rintro i c₄ ⟨-, here⟩
  exact ⟨_, _, rfl, .set opens items closes, by simpa using here⟩

theorem isAtNamedKey_sound (here : c.At s base forest) :
    Ensures depth start isAtNamedKey c fun named c' =>
      c'.current = c.current ∧ (named = true → c.current.kind = .var) ∧ c'.At s base forest := by
  simp only [isAtNamedKey, ensures_isAt, decide_eq_true_eq]
  split
  · next var =>
    refine (here.peek 1).bind ?_
    rintro k c₁ ⟨same, here⟩
    exact .pure ⟨same, fun _ => var, here⟩
  · exact .pure ⟨rfl, by simp, here⟩

theorem key_sound (sound : Sound depth) (here : c.At s base forest) (named : Bool) :
    Ensures depth start (key named) c fun i c' => c'.Has s base forest (.key named) i := by
  rw [key]
  split
  · next isNamed =>
    subst isNamed
    refine (isAtNamedKey_sound here).bind ?_
    rintro found c₁ ⟨same, var, here⟩
    split
    · next found =>
      refine here.shift.bind ?_
      rintro token c₂ ⟨rfl, here⟩
      refine (here.add forest .name rfl (by simp [Shape.children])).imp ?_
      rintro i c₃ ⟨-, here⟩
      exact ⟨_, .ofName i c₁.current, rfl, .nameKey (.name (same ▸ var found)), here⟩
    · exact .fail
  · next unnamed =>
    obtain rfl : named = false := by simpa using unnamed
    refine (sound.call (.expression [.colon] false) here).imp ?_
    rintro _ c₁ ⟨ts, t, rfl, derives, here⟩
    exact ⟨_, _, rfl, .valueKey derives, here⟩

theorem entries_sound (sound : Sound depth) (here : c.At s base forest) (named : Bool) :
    Ensures depth start (entries named) c fun ids c' =>
      c'.Has s base forest (.entries named) ids := by
  simp only [entries, ensures_isAt, decide_eq_true_eq]
  split
  · exact .pure ⟨[], [], rfl, .noEntries, by simpa using here⟩
  refine (key_sound sound here named).bind ?_
  rintro _ c₁ ⟨ts, k, rfl, key, here⟩
  refine (here.expect .colon).bind ?_
  rintro colon c₂ ⟨rfl, isColon, here⟩
  refine (sound.call (.expression [.comma, .scopeClose] false) here).bind ?_
  rintro _ c₃ ⟨us, v, rfl, value, here⟩
  refine (here.accept .comma).bind ?_
  rintro _ c₄ (⟨comma, rfl, here⟩ | ⟨-, rfl, rfl⟩)
  · refine (sound.call (.entries named) here).bind ?_
    rintro _ c₅ ⟨rest, ps, rfl, others, here⟩
    exact .pure ⟨_, (k, v) :: ps, rfl, .moreEntries key isColon value comma others,
      by simpa using here⟩
  · exact .pure ⟨_, [(k, v)], rfl, .lastEntry key isColon value, by simpa using here⟩

theorem children_ofEntries (named : Bool) (ps : List (Tree × Tree)) :
    (Shape.ofEntries named ps).children = ps.flatMap fun p => [p.1, p.2] := by
  cases named <;> rfl

theorem map_ofEntries (named : Bool) (ps : List (Tree × Tree)) :
    (if named then Shape.objectMap (Yield.ids .pairs ps) else .valueMap (Yield.ids .pairs ps)) =
      (Shape.ofEntries named ps).map Tree.id := by
  cases named <;> rfl

/-- Where the cursor stands at no closing brace, a map has entries. -/
theorem entries_ne_nil {d : Cursor} {trees : List Tree} {named : Bool} {ts : List Token}
    {ps : List (Tree × Tree)} (here : c.At s base forest) (later : d.At s (base ++ ts) trees)
    (entries : Derives (.entries named) ts d.current ps) (closes : d.current.kind = .scopeClose)
    (other : c.current.kind ≠ .scopeClose) : ps ≠ [] := by
  rintro rfl
  cases entries
  rw [List.append_nil] at later
  exact other (here.eq_current later ▸ closes)

theorem map_sound (sound : Sound depth) (here : c.At s base forest) :
    Ensures depth start map c fun i c' => c'.Has s base forest .collection i := by
  refine (here.expect .scopeOpen).bind ?_
  rintro opener c₁ ⟨-, opens, here⟩
  refine (isAtNamedKey_sound here).bind ?_
  rintro named c₂ ⟨same, var, before⟩
  refine (sound.call (.entries named) before).bind ?_
  rintro _ c₃ ⟨ts, ps, rfl, entries, within⟩
  refine (within.expect .scopeClose).bind ?_
  rintro closer c₄ ⟨rfl, closes, here⟩
  have nonempty : named = true → ps ≠ [] := fun isNamed =>
    entries_ne_nil before within entries closes (by rw [same, var isNamed]; decide)
  refine (here.add forest (.ofEntries named ps) (map_ofEntries named ps)
    (by simp [children_ofEntries])).imp ?_
  rintro i c₅ ⟨-, here⟩
  exact ⟨_, _, rfl, .map opens entries nonempty closes, by simpa using here⟩

theorem children_ofEdge (directed : Bool) (mark : Kind) (left right : Tree) :
    (Shape.ofEdge directed mark left right).children = [left, right] := by
  cases directed <;> rfl

theorem map_ofEdge (directed : Bool) (mark : Kind) (left right : Tree) :
    (if directed then Shape.directedEdge left.id right.id (mark = .dir2Edge)
      else .edge left.id right.id) = (Shape.ofEdge directed mark left right).map Tree.id := by
  cases directed <;> rfl

theorem edge_sound (sound : Sound depth) (here : c.At s base forest) (directed : Bool)
    (stops : List Kind) :
    Ensures depth start (edge directed stops) c fun i c' =>
      c'.Has s base forest (.item stops (.edge directed)) i := by
  refine (sound.call (.expression [.dirEdge, .dir2Edge] false) here).bind ?_
  rintro _ c₁ ⟨ts, l, rfl, left, here⟩
  rw [ensures_isAt]
  have finish (d : Cursor)
      (points : c₁.current.kind = .dir2Edge ∨ directed = true ∧ c₁.current.kind = .dirEdge)
      (here : d.At s (base ++ ts ++ [c₁.current]) (forest ++ [l])) :
      Ensures depth start (do
        let right ← call (.expression (.comma :: stops) false)
        Parse.add (if directed then .directedEdge l.id right (c₁.current.kind = .dir2Edge)
          else .edge l.id right) (some c₁.current)) d fun i c' =>
          c'.Has s base forest (.item stops (.edge directed)) i := by
    refine (sound.call (.expression (.comma :: stops) false) here).bind ?_
    rintro _ c₃ ⟨us, r, rfl, right, here⟩
    refine (here.add forest (.ofEdge directed c₁.current.kind l r)
      (map_ofEdge directed c₁.current.kind l r) (by simp [children_ofEdge])).imp ?_
    rintro i c₄ ⟨same, here⟩
    exact ⟨_, _, rfl, .edge left points (same ▸ right), by simpa using here⟩
  dsimp only
  split
  · next isDirected =>
    refine (here.expectAny _).bind ?_
    rintro _ c₂ ⟨rfl, found, here⟩
    have ends := finish c₂ (by simpa [isDirected, or_comm] using found) here
    simp only [if_pos isDirected] at ends
    exact ends
  · next undirected =>
    refine (here.expect _).bind ?_
    rintro _ c₂ ⟨rfl, found, here⟩
    have ends := finish c₂ (.inl found) here
    simp only [if_neg undirected] at ends
    exact ends

theorem children_ofGraph (directed : Bool) (nodes edges : List Tree) :
    (Shape.ofGraph directed nodes edges).children = nodes ++ edges := by
  cases directed <;> rfl

theorem map_ofGraph (directed : Bool) (nodes edges : List Tree) :
    (if directed then Shape.directedGraph (nodes.map Tree.id) (edges.map Tree.id)
      else .undirectedGraph (nodes.map Tree.id) (edges.map Tree.id)) =
      (Shape.ofGraph directed nodes edges).map Tree.id := by
  cases directed <;> rfl

theorem graph_sound (sound : Sound depth) (here : c.At s base forest) (directed : Bool)
    (opens : c.current.kind = if directed then .dirOpen else .undirOpen) :
    Ensures depth start (graph directed) c fun i c' => c'.Has s base forest .collection i := by
  refine here.shift.bind ?_
  rintro token c₁ ⟨rfl, here⟩
  refine (sound.call (.items [.eol, if directed then .dirClose else .undirClose]
    (.expression false)) here).bind ?_
  rintro _ c₂ ⟨ts, xs, rfl, nodes, here⟩
  have close (d : Cursor) (us : List Token) (es : List Tree)
      (edges : Derives (.edges directed) us d.current es)
      (here : d.At s (base ++ c.current :: (ts ++ us)) (forest ++ (xs ++ es))) :
      Ensures depth start (do
        let _ ← expect (if directed then .dirClose else .undirClose)
        Parse.add (if directed then .directedGraph (xs.map Tree.id) (es.map Tree.id)
          else .undirectedGraph (xs.map Tree.id) (es.map Tree.id)) (some c.current)) d fun i c' =>
          c'.Has s base forest .collection i := by
    refine (here.expect _).bind ?_
    rintro closer e ⟨rfl, closes, here⟩
    refine (here.add forest (.ofGraph directed xs es) (map_ofGraph directed xs es)
      (by simp [children_ofGraph])).imp ?_
    rintro i c' ⟨-, here⟩
    cases directed with
    | true =>
      exact ⟨_, _, rfl, .directedGraph opens nodes edges closes, by simpa using here⟩
    | false =>
      exact ⟨_, _, rfl, .undirectedGraph opens nodes edges closes, by simpa using here⟩
  refine (here.accept .eol).bind ?_
  rintro _ c₃ (⟨eol, rfl, here⟩ | ⟨-, rfl, rfl⟩)
  · refine (sound.call (.items [if directed then .dirClose else .undirClose] (.edge directed))
      here).bind ?_
    rintro _ c₄ ⟨us, es, rfl, edges, here⟩
    exact close c₄ _ es (.edges eol edges) (by simpa using here)
  · exact close _ [] [] .noEdges (by simpa using here)

theorem emptyShape_eq_map (container : Container) :
    ∃ shape : Shape Tree, shape.map Tree.id = emptyShape container ∧ shape.children = [] := by
  cases container
  · exact ⟨.arrayList [], rfl, rfl⟩
  · exact ⟨.linkedList [], rfl, rfl⟩
  · exact ⟨.valueMap [], rfl, rfl⟩
  · exact ⟨.set [], rfl, rfl⟩
  · exact ⟨.undirectedGraph [] [], rfl, rfl⟩
  · exact ⟨.directedGraph [] [], rfl, rfl⟩

theorem collection_sound (sound : Sound depth) (here : c.At s base forest) :
    Ensures depth start collection c fun i c' => c'.Has s base forest .collection i := by
  simp only [collection, ensures_current]
  split
  · next _ container abbreviates =>
    obtain ⟨shape, same, empty⟩ := emptyShape_eq_map container
    refine here.shift.bind ?_
    rintro token c₁ ⟨rfl, here⟩
    refine (here.add forest shape same.symm (by simp [empty])).imp ?_
    rintro i c₂ ⟨-, here⟩
    exact ⟨_, _, rfl, .shorthand abbreviates same, here⟩
  · next opens => exact list_sound sound here (opener_of_ofOpener? opens)
  · next opens => exact list_sound sound here (opener_of_ofOpener? opens)
  · next opens => exact set_sound sound here (opener_of_ofOpener? opens)
  · exact map_sound sound here
  · next opens => exact graph_sound sound here false (opener_of_ofOpener? opens)
  · next opens => exact graph_sound sound here true (opener_of_ofOpener? opens)
  · exact .fail

theorem item_sound (sound : Sound depth) (here : c.At s base forest) (stops : List Kind)
    (item : Item) :
    Ensures depth start (Grammar.item stops item) c fun i c' =>
      c'.Has s base forest (.item stops item) i := by
  cases item with
  | expression assignable =>
    refine (sound.call (.expression (.comma :: stops) assignable) here).imp ?_
    rintro _ c₁ ⟨ts, t, rfl, derives, here⟩
    exact ⟨_, _, rfl, .expressionItem derives, here⟩
  | name =>
    refine (name_sound here).imp ?_
    rintro _ c₁ ⟨ts, t, rfl, derives, here⟩
    exact ⟨_, _, rfl, .nameItem derives, here⟩
  | parameter =>
    refine (parameter_sound sound here).imp ?_
    rintro _ c₁ ⟨ts, t, rfl, derives, here⟩
    exact ⟨_, _, rfl, .parameterItem derives, here⟩
  | edge directed => exact edge_sound sound here directed stops

theorem items_sound (sound : Sound depth) (here : c.At s base forest) (stops : List Kind)
    (item : Item) :
    Ensures depth start (items stops item) c fun ids c' =>
      c'.Has s base forest (.items stops item) ids := by
  simp only [items, ensures_isAtAny]
  split
  · next stop => exact .pure ⟨[], [], rfl, .noItems stop, by simpa using here⟩
  refine (item_sound sound here stops item).bind ?_
  rintro _ c₁ ⟨ts, x, rfl, first, here⟩
  refine (here.accept .comma).bind ?_
  rintro _ c₂ (⟨comma, rfl, here⟩ | ⟨-, rfl, rfl⟩)
  · refine (sound.call (.items stops item) here).bind ?_
    rintro _ c₃ ⟨us, rest, rfl, others, here⟩
    exact .pure ⟨_, x :: rest, rfl, .moreItems first comma others, by simpa using here⟩
  · exact .pure ⟨_, [x], rfl, .lastItem first, here⟩

end ScriptSyntax.Grammar
