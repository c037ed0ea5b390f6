import ScriptSyntax.Proofs.Bodies.Seam

/-! A run that has taken the keyword of the body comes to the braces on both sources, and goes on
behind them. -/
namespace ScriptSyntax

open Parse Grammar
open Cursor (Level)

/-! Types. -/

/-- The phrases that are types. -/
def Phrase.isTyping : {y : Yield} → Phrase y → Bool
  | _, .type | _, .types => true
  | _, _ => false

theorem Rule.isTyping_phrase {y : Yield} {rule : Rule y} (typing : rule.isTyping = true) :
    rule.phrase.isTyping = true := by
  cases rule <;> first | contradiction | rfl

/-- Kinds that may stand in a type. Of the keywords with bodies these are such as have a header. -/
def Kind.isTypeWord (k : Kind) : Bool :=
  !([parOpen, greaterThan].contains k) && k.stage?.all (· = .header)

theorem Derives.isTypeWord {y : Yield} {p : Phrase y} {ts : List Token} {next : Token}
    {r : y.Result} (derives : Derives p ts next r) (typing : p.isTyping = true) :
    ∀ t ∈ ts, t.kind.isTypeWord = true := by
  have marked {mark : Option Token} (star : ∀ m ∈ mark, m.kind = .multiply) :
      ∀ t ∈ mark.toList, t.kind.isTypeWord = true := by
    intro t member
    rw [star t (Option.mem_toList.mp member)]
    rfl
  induction derives with
  | namedType star names =>
    refine List.forall_mem_append.mpr ⟨marked star, ?_⟩
    exact List.forall_mem_singleton.mpr (Kind.of_all rfl names)
  | shorthandType star short =>
    refine List.forall_mem_append.mpr ⟨marked star, List.forall_mem_singleton.mpr ?_⟩
    exact Kind.of_all (P := abbreviatesContainer) rfl (by simp [abbreviatesContainer, short])
  | @containerType container _ closer _ opener _ _ star opens _ closes inside =>
    have first : opener.kind.isTypeWord = true :=
      Kind.of_all (P := opensContainer) rfl (by simp [opensContainer, opens])
    have last : closer.kind.isTypeWord = true := by
      rw [closes]
      cases container <;> rfl
    refine List.forall_mem_append.mpr ⟨?_, List.forall_mem_singleton.mpr last⟩
    exact List.forall_mem_append.mpr ⟨marked star, List.forall_mem_cons.mpr ⟨first, inside rfl⟩⟩
  | lastType _ type => exact type rfl
  | moreTypes _ comma _ first rest =>
    refine List.forall_mem_append.mpr ⟨first rfl, List.forall_mem_cons.mpr ⟨?_, rest rfl⟩⟩
    rw [comma]
    rfl
  | _ => cases typing

/-! The braces. -/

namespace Parse

variable {rules : {y : Yield} → Rule y → Cursor → Option (Cursor.Outcome y.Value)} {start : Point}
  {c d : Cursor} {k : Kind} {t : Token}

theorem exec_accept_of_eq (kind : c.current.kind = k)
    (taken : act rules .shift c = some (.ok t, d)) :
    (accept k).exec rules start c = some (.ok true, d) := by
  rw [accept, accept?, isAt]
  simp only [LawfulMonad.bind_assoc, exec_current kind, LawfulMonad.pure_bind, decide_true, if_true]
  exact exec_step_ok.mpr ⟨t, d, taken, rfl⟩

theorem exec_accept_of_ne (kind : c.current.kind ≠ k) :
    (accept k).exec rules start c = some (.ok false, c) := by
  rw [accept, accept?, isAt]
  simp only [LawfulMonad.bind_assoc, exec_current rfl, LawfulMonad.pure_bind, decide_eq_false kind,
    Bool.false_eq_true, if_false]
  rfl

end Parse

namespace Grammar

/-- What is read between braces, or the empty block. -/
def braced (rule : Rule .nodes) : Parse NodeId := do
  if ← accept .mapType then add (.block []) none
  else
    let _ ← expect .scopeOpen
    let items ← call rule
    let block ← add (.block items) none
    let _ ← expect .scopeClose
    return block

theorem bracedBlock_eq : bracedBlock = braced (.statements [.scopeClose]) := rfl

theorem memberBody_eq : memberBody = braced .members := rfl

/-- What is read of a declaration with types behind its mark. -/
def typedName (mark : Option Token) : Parse NodeId := do
  let modifiers ← call .modifiers
  let token ← expect .var
  let name ← add .name (some token)
  let _ ← isAt .lessThan
  let types ← typeList
  add (.declare modifiers name types) mark

theorem declaration_typed : declaration true = accept? .atSign >>= typedName := rfl

/-- The rule reads nothing before a `}`. -/
def Idle (rule : Rule .nodes) : Prop :=
  ∀ depth (c : Cursor), c.current.kind = .scopeClose → rule.run (depth + 1) c = some (.ok [], c)

theorem idle_statements : Idle (.statements [.scopeClose]) := by
  intro depth c kind
  change (statements [.scopeClose]).exec _ _ _ = _
  rw [statements, isAtAny, LawfulMonad.bind_assoc, exec_current kind]
  rfl

theorem idle_members : Idle .members := by
  intro depth c kind
  change members.exec _ _ _ = _
  rw [members, isAt, LawfulMonad.bind_assoc, exec_current kind]
  rfl

/-- Empty braces are read as a block without statements, whichever way they are written. -/
theorem exec_braced {tokens : Nat → Token} {i : Nat} {braces : List Token} {c : Cursor}
    {rule : Rule .nodes} (idle : Idle rule) (empty : EmptyBraces braces)
    (lies : Lies tokens i braces) (walks : c.Walks tokens i) (depth : Nat) (start : Point) :
    ∃ d, (braced rule).exec (Rule.run (depth + 1)) start c = some (.ok c.arena.size, d) ∧
      d.Walks tokens (i + braces.length) ∧ d.arena = (c.arena.add (.block []) none).2 := by
  obtain ⟨e, entered, within, arena⟩ := walks.act_shift (depth + 1)
  rcases empty with ⟨fused⟩ | ⟨opens, closes⟩
  · have here : c.current.kind = .mapType := by rw [walks.current, (lies_cons.mp lies).1, fused]
    refine ⟨(e.add (.block []) none).2, ?_, within.stay rfl rfl rfl,
      congrArg (fun a => (Arena.add a _ _).2) arena⟩
    refine exec_bind_ok.mpr ⟨true, e, exec_accept_of_eq here entered, ?_⟩
    rw [← arena]
    rfl
  · rw [lies_cons, lies_cons] at lies
    have here : c.current.kind = .scopeOpen := by rw [walks.current, lies.1, opens]
    have there : e.current.kind = .scopeClose := by rw [within.current, lies.2.1, closes]
    let f := (e.add (.block []) none).2
    have there' : f.current.kind = .scopeClose := there
    have behind : f.Walks tokens (i + 1) := within.stay rfl rfl rfl
    obtain ⟨d, left, after, arena'⟩ := behind.act_shift (depth + 1)
    refine ⟨d, ?_, after, arena'.trans (congrArg (fun a => (Arena.add a _ _).2) arena)⟩
    refine exec_bind_ok.mpr ⟨false, c, exec_accept_of_ne (here ▸ nofun), ?_⟩
    refine exec_bind_ok.mpr
      ⟨_, e, (exec_expect here).trans ((exec_perform .shift).trans entered), ?_⟩
    refine exec_bind_ok.mpr ⟨[], e, (exec_perform (.call rule)).trans (idle depth e there), ?_⟩
    refine exec_bind_ok.mpr ⟨c.arena.size, f, arena ▸ rfl, ?_⟩
    exact exec_bind_ok.mpr
      ⟨_, d, (exec_expect there').trans ((exec_perform .shift).trans left), rfl⟩

end Grammar

/-- Where a fresh rule starts nothing was read. -/
theorem Rule.Ready.at {c : Cursor} {s : Scanner} {base : List Token} {forest : List Tree}
    {y : Yield} {rule : Rule y} (ready : rule.Ready c s base forest) (fresh : rule.isFresh = true) :
    c.At s base forest := by
  cases rule <;> first | contradiction | exact ready

namespace Seam

variable {α β : Type} {x : Seam} {i depth : Nat} {k : Kind} {stage : Stage} {p : Parse α}
  {f : α → Parse β}

/-- A run from here on the first source has one beside it on the second, where calls may nest one
deeper, and both come to stand behind the braces. -/
def Enters (x : Seam) (depth i : Nat) (p : Parse α) : Prop :=
  ∀ ⦃start start' : Point⦄ ⦃c c' d : Cursor⦄ ⦃a : α⦄, Level x.first x.second i i c c' →
    p.Apt depth c → p.exec (Rule.run depth) start c = some (.ok a, d) →
    ∃ d', p.exec (Rule.run (depth + 1)) start' c' = some (.ok a, d') ∧ x.Past d d'

theorem Enters.bind (enters : x.Enters depth i p) : x.Enters depth i (p >>= f) := by
  intro start start' c c' d b level apt ran
  obtain ⟨a, e, ran, later⟩ := exec_bind_ok.mp ran
  obtain ⟨e', ran', past⟩ := enters level apt.of_bind.1 ran
  obtain ⟨d', later', past⟩ := past.exec start' later
  exact ⟨d', exec_bind_ok.mpr ⟨a, e', ran', exec_of_le (Nat.le_succ depth) later'⟩, past⟩

theorem enters_fail {blame : Blame} {fault : String → Fault} :
    x.Enters depth i (.fail blame fault : Parse α) := by
  intro start start' c c' d a level apt ran
  cases blame <;> cases ran

theorem enters_current {g : Kind → Parse α} (before : i < x.place)
    (rest : x.Enters depth i (g (x.first i).kind)) : x.Enters depth i (current >>= g) := by
  intro start start' c c' d a level apt ran
  have here : c.current.kind = (x.first i).kind := congrArg _ level.first.current
  have here' : c'.current.kind = (x.first i).kind := by
    rw [level.second.current, x.before i before]
  rw [exec_current here] at ran
  rw [exec_current here']
  exact rest level (here ▸ apt.2 _ c rfl) ran

theorem enters_shift {g : Token → Parse α} (before : i < x.place)
    (rest : x.Enters depth (i + 1) (g (x.first i))) : x.Enters depth i (shift >>= g) := by
  intro start start' c c' d a level apt ran
  obtain ⟨t, e, acted, later⟩ := exec_step_ok.mp ran
  obtain ⟨e', acted', after⟩ := level.act_shift (x.before i before) acted
  obtain ⟨_, again, -⟩ := level.first.act_shift depth
  cases acted.symm.trans again
  obtain ⟨d', later', past⟩ := rest after (apt.2 _ e acted) later
  exact ⟨d', exec_step_ok.mpr ⟨_, e', acted', later'⟩, past⟩

theorem enters_add {shape : Shape NodeId} {token : Option Token} {g : NodeId → Parse α}
    (rest : ∀ id, x.Enters depth i (g id)) : x.Enters depth i (add shape token >>= g) := by
  intro start start' c c' d a level apt ran
  obtain ⟨id, e, acted, later⟩ := exec_step_ok.mp ran
  obtain ⟨e', acted', after⟩ := level.act_still rfl (by simp) acted
  obtain ⟨d', later', past⟩ := rest id after (apt.2 id e acted) later
  exact ⟨d', exec_step_ok.mpr ⟨id, e', acted', later'⟩, past⟩

theorem enters_isAt {g : Bool → Parse α} (before : i < x.place)
    (rest : x.Enters depth i (g (decide ((x.first i).kind = k)))) :
    x.Enters depth i (isAt k >>= g) :=
  enters_current (g := fun kind => g (decide (kind = k))) before rest

theorem enters_expect {g : Token → Parse α} (before : i < x.place)
    (rest : (x.first i).kind = k → x.Enters depth (i + 1) (g (x.first i))) :
    x.Enters depth i (expect k >>= g) := by
  rw [expect, LawfulMonad.bind_assoc]
  refine enters_isAt before ?_
  split
  · next found => exact enters_shift before (rest (of_decide_eq_true found))
  · exact enters_fail

theorem enters_accept? {g : Option Token → Parse α} (before : i < x.place)
    (taken : (x.first i).kind = k → x.Enters depth (i + 1) (g (some (x.first i))))
    (other : (x.first i).kind ≠ k → x.Enters depth i (g none)) :
    x.Enters depth i (accept? k >>= g) := by
  rw [accept?, LawfulMonad.bind_assoc]
  refine enters_isAt before ?_
  split
  · next found =>
    rw [LawfulMonad.bind_assoc]
    exact enters_shift before (taken (of_decide_eq_true found))
  · next absent => exact other (by simpa using absent)

theorem enters_accept {g : Bool → Parse α} (before : i < x.place)
    (taken : (x.first i).kind = k → x.Enters depth (i + 1) (g true))
    (other : (x.first i).kind ≠ k → x.Enters depth i (g false)) :
    x.Enters depth i (accept k >>= g) := by
  rw [accept, LawfulMonad.bind_assoc]
  exact enters_accept? before taken other

/-- A call before the braces that takes such tokens only leaves the run on its way to them. -/
theorem enters_call {P : List Token → Prop} {y : Yield} {rule : Rule y} {g : y.Value → Parse α}
    (fenced : x.Fenced P stage i) (fresh : rule.isFresh = true)
    (derived : ∀ {ts next r}, Derives rule.phrase ts next r → P ts)
    (rest : ∀ v {j}, x.Stands stage j → x.Enters depth j (g v)) :
    x.Enters depth i (call rule >>= g) := by
  intro start start' c c' d a level apt ran
  obtain ⟨v, e, called, later⟩ := exec_step_ok.mp ran
  obtain ⟨l, before, blunt, short⟩ := fenced
  -- What the call takes comes to the blunt token at most.
  obtain ⟨s, base, forest, ready⟩ := apt.1
  obtain ⟨ts, r, -, derives, there⟩ := sound depth rule c e s base forest v ready called
  have here : c.At s base forest := ready.at fresh
  obtain ⟨within, stands⟩ := short ts (derived derives) (here.lies there level.first)
  have inside : i + ts.length < x.stop := by
    have := x.place_lt
    omega
  have arrives {j : Nat} (walks : e.Walks x.first j) : i + ts.length = j :=
    here.place_eq there level.first walks x.ends inside
  obtain ⟨j, e', called', after⟩ | ⟨j, past, walks⟩ := (x.verge l before blunt).looseRules depth
    rule i c c' e v (.of_level level (by rw [verge_size]; omega)) called
  · obtain rfl := arrives after.first
    obtain ⟨d', later', past⟩ := rest v stands after.level (apt.2 v e called) later
    exact ⟨d', exec_step_ok.mpr ⟨v, e', Rule.run_succ called', later'⟩, past⟩
  · have := arrives walks
    rw [verge_size] at past
    omega

/-- A token that is no bracket leaves the parentheses open. -/
theorem Stands.pass (stands : x.Stands .inside i) (plain : (x.first i).kind.isInner = true) :
    x.Stands .inside (i + 1) := by
  obtain ⟨l, -, -, short⟩ := stands.inside
  exact (short [x.first i] (nested_of_inner (by simpa using plain)) (lies_cons.mpr ⟨rfl, nofun⟩)).2

/-- A token that does not end the declaration leaves its end to come. -/
theorem Stands.proceed (stands : x.Stands .declaration i)
    (plain : (x.first i).kind ≠ .greaterThan) : x.Stands .declaration (i + 1) := by
  obtain ⟨l, -, -, short⟩ := stands.declaration
  exact (short [x.first i] (by simpa using plain) (lies_cons.mpr ⟨rfl, nofun⟩)).2

/-- No type is written with the mark that ends a list of them. -/
theorem enters_typedName {g : NodeId → Parse α} (stands : x.Stands .declaration i)
    (mark : Option Token) (rest : ∀ id, x.Enters depth x.place (g id)) :
    x.Enters depth i (typedName mark >>= g) := by
  have lt {j : Nat} (stands : x.Stands .declaration j) : j < x.place := stands.lt (by decide)
  simp only [typedName, typeList, typesUntil, LawfulMonad.bind_assoc]
  refine enters_call stands.declaration rfl ?_ fun modifiers j stands => ?_
  · intro ts next r derives t member ends
    cases derives with | modifiers all
    exact absurd (ends ▸ all t member) (by decide)
  refine enters_expect (lt stands) fun var => ?_
  have stands := stands.proceed (var ▸ by decide)
  refine enters_add fun name => enters_isAt (lt stands) ?_
  refine enters_expect (lt stands) fun opens => ?_
  have stands := stands.proceed (opens ▸ by decide)
  refine enters_call stands.declaration rfl ?_ fun types j stands => ?_
  · exact fun derives t member ends => absurd (ends ▸ derives.isTypeWord rfl t member) (by decide)
  refine enters_isAt (lt stands) ?_
  split
  · next ends =>
    simp only [LawfulMonad.pure_bind]
    refine enters_expect (lt stands) fun _ => ?_
    have stands := stands.finish (of_decide_eq_true ends)
    exact stands.braces ▸ enters_add rest
  · exact enters_fail

theorem enters_declaration {g : NodeId → Parse α} (stands : x.Stands .declaration i)
    (rest : ∀ id, x.Enters depth x.place (g id)) :
    x.Enters depth i (declaration true >>= g) := by
  rw [declaration_typed, LawfulMonad.bind_assoc]
  refine enters_accept? (stands.lt (by decide)) (fun found => ?_) fun _ => ?_
  · exact enters_typedName (stands.proceed (found ▸ by decide)) _ rest
  · exact enters_typedName stands none rest

theorem kind_braces {tokens : Nat → Token} {braces : List Token} (empty : EmptyBraces braces)
    (lies : Lies tokens i braces) : [Kind.scopeOpen, .mapType].contains (tokens i).kind = true := by
  rcases empty with ⟨fused⟩ | ⟨opens, -⟩
  · rw [(lies_cons.mp lies).1, fused]
    rfl
  · rw [(lies_cons.mp lies).1, opens]
    rfl

theorem enters_isAtBrace {g : Bool → Parse α} (stands : x.Stands .braces i)
    (rest : x.Enters depth i (g true)) : x.Enters depth i (isAtBrace >>= g) := by
  intro start start' c c' d a level apt ran
  obtain rfl := stands.braces
  have here : [Kind.scopeOpen, .mapType].contains c.current.kind = true :=
    level.first.current ▸ kind_braces x.empty lies_braces
  have here' : [Kind.scopeOpen, .mapType].contains c'.current.kind = true :=
    level.second.current ▸ kind_braces x.empty' x.lies'
  have apt : (g true).Apt depth c := here ▸ apt.2 _ c rfl
  have ran : (g true).exec (Rule.run depth) start c = some (.ok a, d) := here ▸ ran
  obtain ⟨d', ran', past⟩ := rest level apt ran
  refine ⟨d', ?_, past⟩
  change (g ([Kind.scopeOpen, .mapType].contains c'.current.kind)).exec _ _ c' = _
  rw [here', ran']

theorem enters_braced {rule : Rule .nodes} (idle : Idle rule) (stands : x.Stands .braces i) :
    x.Enters depth i (braced rule) := by
  intro start start' c c' d a level apt ran
  obtain rfl := stands.braces
  obtain ⟨e, read, after, arena⟩ := exec_braced idle x.empty lies_braces level.first depth start
  obtain ⟨d', read', after', arena'⟩ :=
    exec_braced idle x.empty' x.lies' level.second depth start'
  cases (exec_of_le (Nat.le_succ depth) ran).symm.trans read
  refine ⟨d', by rw [read', level.arena], 0, after, after', ?_⟩
  rw [arena, arena', level.arena]

/-- The parse takes what leads to the braces, and then these. -/
theorem enters_of_approaches (approaches : Approaches stage p) (depth i : Nat)
    (stands : x.Stands stage i) : x.Enters depth i p := by
  induction approaches generalizing depth i with
  | bind _ ih => exact (ih depth i stands).bind
  | @call stage y rule _ ih =>
    intro start start' c c' d a level apt ran
    cases depth with
    | zero => cases ran
    | succ depth =>
      obtain ⟨s, base, forest, ready⟩ := apt.1
      obtain ⟨d', ran', past⟩ :=
        ih depth i stands level (ready.apt depth) ((exec_perform _).symm.trans ran)
      exact ⟨d', (exec_perform (.call rule)).trans ran', past⟩
  | opener _ ih =>
    exact enters_expect (stands.lt nofun) fun _ => ih _ _ _ stands.header.2
  | inner fresh _ ih =>
    exact enters_call stands.inside fresh (·.nested) fun v j stands => ih v depth j stands
  | colon _ ih =>
    refine enters_accept (stands.lt nofun) (fun found => ?_) fun _ => ih false depth i stands
    exact ih true depth (i + 1) (stands.pass (by rw [found]; rfl))
  | stuck => exact enters_fail
  | closer _ ih =>
    exact enters_expect (stands.lt nofun) fun found => ih _ _ _ (stands.close found)
  | arrow _ ih =>
    exact enters_expect (stands.lt nofun) fun _ => ih _ _ _ stands.arrow.2
  | unlessIf _ ih =>
    refine enters_accept? (stands.lt nofun) (fun found => ?_) fun _ => ih depth i stands
    rw [stands.arrow.1] at found
    cases found
  | declared _ ih =>
    exact enters_declaration stands fun id => ih id depth x.place ⟨[], .braces, nofun, rfl⟩
  | atBrace _ ih => exact enters_isAtBrace stands (ih depth i stands)
  | block => exact bracedBlock_eq ▸ enters_braced idle_statements stands
  | members => exact memberBody_eq ▸ enters_braced idle_members stands

end Seam
end ScriptSyntax
