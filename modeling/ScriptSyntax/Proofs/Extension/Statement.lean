import ScriptSyntax.Proofs.Extension.Abreast

/-! Statements are firm: the last token of one ends it, whatever follows. Only a directive looks
past its end, for what may go on with it. -/
namespace ScriptSyntax

open Parse Grammar

namespace Extension

variable {x : Extension} {depth i : Nat}

/-! Single tokens. -/

theorem firmAt_isAt {α : Type} {k : Kind} {f : Bool → Parse α} (inside : i < x.size)
    (rest : x.FirmAt depth i (f (decide ((x.short i).kind = k)))) :
    x.FirmAt depth i (isAt k >>= f) :=
  firmAt_current inside (f := fun kind => f (decide (kind = k))) rest

theorem firm_expect {k : Kind} (more : k ≠ .eof) : x.Firm depth (expect k) := by
  intro i
  refine .of_moves 0 (expect_moves more) fun inside => ?_
  rw [expect]
  refine firmAt_isAt inside ?_
  split
  · exact firmAt_shift inside
  · exact firmAt_fail

theorem firmAt_accept? (k : Kind) (inside : i < x.size) : x.FirmAt depth i (accept? k) := by
  rw [accept?]
  refine firmAt_isAt inside ?_
  split
  · exact (firmAt_shift inside).bind fun t _ => firmAt_pure
  · exact firmAt_pure

theorem firmAt_accept (k : Kind) (inside : i < x.size) : x.FirmAt depth i (accept k) :=
  (firmAt_accept? k inside).bind fun _ _ => firmAt_pure

/-- What may go on with a directive does not begin what follows. -/
theorem firm_accept? {k : Kind} (other : k ∈ [Kind.elseKw, .catchKw]) :
    x.Firm depth (accept? k) := by
  intro i
  by_cases inside : i < x.size
  · exact firmAt_accept? k inside
  · have apart : (x.long x.size).kind ≠ k := fun same => x.apart (same ▸ other)
    have more : Kind.eof ≠ k := by
      rintro rfl
      exact absurd other (by decide)
    refine firmAt_current_of_eq inside ?_ ?_
    · simp [apart, more]
    · rw [decide_eq_false more]
      exact firmAt_pure

theorem firm_accept {k : Kind} (other : k ∈ [Kind.elseKw, .catchKw]) :
    x.Firm depth (accept k) :=
  (firm_accept? other).bind fun _ _ => firmAt_pure

theorem firm_add (shape : Shape NodeId) (token : Option Token) :
    x.Firm depth (Parse.add shape token) :=
  firm_still rfl nofun

/-! Blocks and bodies. -/

theorem firm_bracedBlock : x.Firm depth bracedBlock := by
  intro i
  refine .of_moves 0 bracedBlock_moves fun inside => ?_
  refine (firmAt_accept .mapType inside).bind ?_
  rintro (- | -)
  · refine (firm_expect (by decide)).bind fun opener => ?_
    refine Loose.bind 0 (.of_sightless (by simp)) (fun block => by simp) fun block => ?_
    exact (firm_expect (by decide)).bind fun closer i => firmAt_pure
  · exact firm_add _ _

/-- Calls that nest up to the depth keep abreast if they are for rules that own what they end
with. -/
structure FirmRules (x : Extension) (depth : Nat) : Prop where
  statement : x.Firm depth (call .statement)
  branches : ∀ keyword, x.Firm depth (call (.branches keyword))
  catches : x.Firm depth (call .catches)

namespace FirmRules

variable (rules : x.FirmRules depth)

include rules

theorem body : x.Firm depth Grammar.body := by
  refine Loose.bind 4 (.of_sightless rfl) ?_ ?_
  · rintro (- | -)
    · simp [Rule.rank, Rule.moves]
    · exact bracedBlock_moves
  · rintro (- | -)
    · exact rules.statement.bind fun statement => firm_add _ _
    · exact firm_bracedBlock

theorem otherwise? : x.Firm depth Grammar.otherwise? := by
  refine (firm_accept (by simp)).bind ?_
  rintro (- | -)
  · exact fun i => firmAt_pure
  · refine (firm_expect (by decide)).bind fun arrow => ?_
    exact rules.body.bind fun body i => firmAt_pure

theorem branches_body (keyword : Token) : x.Firm depth (Grammar.branches keyword) := by
  refine Loose.bind 0 (.of_sightless (by simp)) (fun condition => by simp) ?_
  intro condition
  refine (firm_expect (by decide)).bind fun arrow => ?_
  refine rules.body.bind fun body => ?_
  refine (firm_add _ _).bind fun branch => ?_
  refine (firm_accept (by simp)).bind ?_
  rintro (- | -)
  · exact fun i => firmAt_pure
  refine Loose.bind 4 (.of_sightless (by simp)) ?_ ?_
  · rintro (- | keyword)
    · simp
    · simp [Rule.rank, Rule.moves]
  · rintro (- | keyword)
    · refine (firm_expect (by decide)).bind fun arrow => ?_
      exact rules.body.bind fun body i => firmAt_pure
    · exact (rules.branches keyword).bind fun others i => firmAt_pure

theorem conditional : x.Firm depth Grammar.conditional := by
  refine (firm_expect (by decide)).bind fun token => ?_
  exact (rules.branches token).bind fun branches => firm_add _ _

theorem loop : x.Firm depth Grammar.loop := by
  refine (firm_expect (by decide)).bind fun token => ?_
  refine (firm_expect (by decide)).bind fun opener => ?_
  refine Loose.bind 0 (.of_sightless (by simp)) ?_ ?_
  · intro sections
    split
    · exact fun _ => trivial
    · simp
  · intro sections
    split
    · exact fun i => firmAt_fail
    refine (firm_expect (by decide)).bind fun closer => ?_
    refine (firm_expect (by decide)).bind fun arrow => ?_
    refine rules.body.bind fun body => ?_
    exact rules.otherwise?.bind fun otherwise => firm_add _ _

theorem switch : x.Firm depth Grammar.switch := by
  refine (firm_expect (by decide)).bind fun token => ?_
  refine Loose.bind 0 (.of_sightless (by simp)) (fun subject => by simp) fun subject => ?_
  refine (firm_expect (by decide)).bind fun arrow => ?_
  refine (firm_expect (by decide)).bind fun opener => ?_
  refine Loose.bind 0 (.of_sightless (by simp)) (fun cases => by simp) fun cases => ?_
  refine (firm_expect (by decide)).bind fun closer => ?_
  exact rules.otherwise?.bind fun otherwise => firm_add _ _

theorem catches_body : x.Firm depth Grammar.catches := by
  refine (firm_accept? (by simp)).bind ?_
  rintro (- | token)
  · exact fun i => firmAt_pure
  refine Loose.bind 4 (.of_sightless (by simp)) ?_ fun declaration => ?_
  · exact fun declaration => bracedBlock_moves.bind fun body k => by simp
  refine firm_bracedBlock.bind fun body => ?_
  refine (firm_add _ _).bind fun first => ?_
  exact rules.catches.bind fun others i => firmAt_pure

theorem guarded : x.Firm depth Grammar.guarded := by
  refine (firm_expect (by decide)).bind fun token => ?_
  refine firm_bracedBlock.bind fun body => ?_
  refine rules.catches.bind fun catches => ?_
  exact rules.otherwise?.bind fun otherwise => firm_add _ _

theorem directive : x.Firm depth Grammar.directive := by
  intro i
  refine .of_moves 0 directive_moves fun inside => firmAt_current inside ?_
  split
  · exact rules.conditional i
  · exact rules.loop i
  · exact rules.switch i
  · exact rules.guarded i
  · exact firmAt_fail

/-- A directive ends with its body, and any other statement with its `;`. -/
theorem statement_body : x.Firm depth Grammar.statement := by
  have moves : Moves Grammar.statement 2 false .eof := statement_moves
  rw [Grammar.statement, Moves, proceeds_bind, proceeds_announce] at moves
  have announced : x.Firm depth announce := firm_still rfl (by simp)
  refine announced.bind fun _ i => ?_
  refine .of_moves 2 moves fun inside => firmAt_current inside ?_
  split
  · exact rules.directive i
  · refine Loose.bind 0 (.of_sightless (by simp)) (fun statement => by simp) ?_ i
    intro statement
    exact (firm_expect (by decide)).bind fun stop i => firmAt_pure

end FirmRules

theorem firm_call {y : Yield} {rule : Rule y} (firm : x.Firm depth rule.body) :
    x.Firm (depth + 1) (call rule) := by
  intro i start start' c c' d a abreast ran
  rw [call, exec_perform] at ran
  obtain ⟨j, d', ran', after⟩ := firm i c.point c'.point c c' d a abreast ran
  exact ⟨j, d', (exec_perform (.call rule)).trans ran', after⟩

theorem firmRules (x : Extension) (depth : Nat) : x.FirmRules depth := by
  induction depth with
  | zero =>
    constructor <;> intros <;> intro i start start' c c' d a abreast ran <;> cases ran
  | succ depth ih =>
    exact ⟨firm_call ih.statement_body, fun keyword => firm_call (ih.branches_body keyword),
      firm_call ih.catches_body⟩

end Extension
end ScriptSyntax
