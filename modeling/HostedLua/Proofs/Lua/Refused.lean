import HostedLua.Lua.Parser
import HostedLua.Proofs.Lua.Lines

/-! Where a chunk is refused. The reader blames the line of the lexeme at hand and it comes by no lexeme that the lexer
has not given; only nesting is blamed on no line. So the line that a refusal names is one of the chunk
(`parse_names`). -/

namespace HostedLua.Lua

/-- The refusal of what nests too deep, which names no line. -/
def Malformed.overflow : Malformed := ⟨0, .ofString "C stack overflow", none⟩

/-- A refusal names one of the first lines, or it is that of what nests too deep. -/
def Malformed.Names (n : Nat) (e : Malformed) : Prop := (1 ≤ e.line ∧ e.line ≤ n) ∨ e = overflow

/-- The lexemes at hand and to come stand on the first lines. -/
structure Reader.Within (n : Nat) (r : Reader) : Prop where
  here : 1 ≤ r.here.line ∧ r.here.line ≤ n
  ahead : ∀ e ∈ r.ahead, 1 ≤ Lexeme.reported e ∧ Lexeme.reported e ≤ n

namespace Read

variable {α β : Type} {n : Nat}

/-- Reading from lexemes on the first lines leaves such lexemes, or gives up naming such a line. -/
structure Stays (n : Nat) (x : Read α) : Prop where
  goesOn : ∀ ⦃r a r'⦄, r.Within n → x r = .ok (a, r') → r'.Within n
  refuses : ∀ ⦃r e⦄, r.Within n → x r = .error e → e.Names n

/-! ### Steps -/

theorem Stays.of_ok {x : Read α} {f : Reader → α × Reader} (hx : ∀ r, x r = .ok (f r))
    (hf : ∀ r, r.Within n → (f r).2.Within n) : Stays n x := by
  refine ⟨fun r a r' hr h => ?_, fun r e _ h => ?_⟩
  · have hr' := hf r hr
    rwa [Except.ok.inj ((hx r).symm.trans h)] at hr'
  · rw [hx] at h
    cases h

theorem Stays.of_error {x : Read α} {f : Reader → Malformed} (hx : ∀ r, x r = .error (f r))
    (hf : ∀ r, r.Within n → (f r).Names n) : Stays n x := by
  refine ⟨fun r a r' _ h => ?_, fun r e hr h => ?_⟩
  · rw [hx] at h
    cases h
  · rw [hx] at h
    exact Except.error.inj h ▸ hf r hr

@[grind ←] theorem Stays.pure (a : α) : Stays n (pure a : Read α) := .of_ok (fun _ => rfl) fun _ hr => hr

@[grind ←] theorem Stays.bind {x : Read α} {f : α → Read β} (hx : Stays n x) (hf : ∀ a, Stays n (f a)) :
    Stays n (x >>= f) := by
  have hbind (r : Reader) : (x >>= f) r = (x r >>= fun p => f p.1 p.2) := rfl
  refine ⟨fun r b r' hr h => ?_, fun r e hr h => ?_⟩
  · rw [hbind] at h
    cases hx' : x r with
    | ok p =>
      rw [hx'] at h
      exact (hf p.1).goesOn (hx.goesOn hr hx') h
    | error e =>
      rw [hx'] at h
      cases h
  · rw [hbind] at h
    cases hx' : x r with
    | ok p =>
      rw [hx'] at h
      exact (hf p.1).refuses (hx.goesOn hr hx') h
    | error e' =>
      rw [hx'] at h
      cases h
      exact hx.refuses hr hx'

@[grind ←] theorem Stays.map {x : Read α} {f : α → β} (hx : Stays n x) : Stays n (f <$> x) := by
  rw [map_eq_pure_bind]
  exact hx.bind fun a => .pure _

/-- What is read next may depend on the state, which stands within the line. -/
@[grind ←] theorem Stays.get {f : Reader → Read α} (hf : ∀ r, r.Within n → Stays n (f r)) : Stays n (get >>= f) :=
  ⟨fun r _ _ hr h => (hf r hr).goesOn hr h, fun r _ hr h => (hf r hr).refuses hr h⟩

@[grind ←] theorem Stays.set {r : Reader} (hr : r.Within n) : Stays n (set r : Read Unit) :=
  .of_ok (fun _ => rfl) fun _ _ => hr

theorem Stays.modify {f : Reader → Reader} (hf : ∀ r, r.Within n → (f r).Within n) : Stays n (modify f : Read Unit) :=
  .of_ok (fun _ => rfl) hf

theorem Stays.mapM {f : α → Read β} (hf : ∀ a, Stays n (f a)) (l : List α) : Stays n (l.mapM f) := by
  induction l with
  | nil => exact .pure _
  | cons a l ih =>
    rw [List.mapM_cons]
    exact (hf a).bind fun b => ih.bind fun bs => .pure _

theorem Stays.forM {f : α → Read Unit} (hf : ∀ a, Stays n (f a)) (l : List α) : Stays n (l.forM f) := by
  induction l with
  | nil => exact .pure _
  | cons a l ih => exact (hf a).bind fun _ => ih

@[grind ←] theorem stays_fail (what : String) : Stays n (fail what : Read α) :=
  .of_error (fun _ => rfl) fun _ hr => .inl hr.here

@[grind ←] theorem stays_failNear (what : Bytes) : Stays n (failNear what : Read α) :=
  .of_error (fun _ => rfl) fun _ hr => .inl hr.here

@[grind ←] theorem stays_failWith (what : Bytes) : Stays n (failWith what : Read α) :=
  .of_error (fun _ => rfl) fun _ hr => .inl hr.here

@[grind ←] theorem stays_failExpected (w : String) : Stays n (failExpected w : Read α) := stays_failNear _

/-! ### Lexemes -/

@[grind ←] theorem stays_advance : Stays n advance := by
  refine ⟨fun r a r' hr h => ?_, fun r e hr h => ?_⟩
  all_goals
    have hahead := hr.ahead
    unfold advance at h
    split at h
    · next l rest heq =>
      cases h <;> rw [heq, List.forall_mem_cons] at hahead <;> exact ⟨hahead.1, hahead.2⟩
    · next e rest heq =>
      cases h <;> rw [heq, List.forall_mem_cons] at hahead <;> exact .inl hahead.1
    · cases h <;> exact ⟨hr.here, hr.ahead⟩

@[grind ←] theorem stays_peek : Stays n peek := by
  refine ⟨fun r a r' hr h => ?_, fun r e hr h => ?_⟩
  all_goals
    have hahead := hr.ahead
    unfold peek at h
    split at h
    · cases h <;> exact hr
    · next e rest heq =>
      cases h <;> rw [heq, List.forall_mem_cons] at hahead <;> exact .inl hahead.1
    · cases h <;> exact hr

@[grind ←] theorem stays_line : Stays n line := .of_ok (fun _ => rfl) fun _ hr => hr

@[grind ←] theorem stays_lastLine : Stays n lastLine := .of_ok (fun _ => rfl) fun _ hr => hr

@[grind ←] theorem stays_at? (w : String) : Stays n (at? w) := .of_ok (fun _ => rfl) fun _ hr => hr

@[grind ←] theorem stays_accept (w : String) : Stays n (accept w) := by grind [accept]

@[grind ←] theorem stays_expect (w : String) : Stays n (expect w) := by grind [expect]

@[grind ←] theorem stays_expectClosing (w opener : String) (openLine : Nat) : Stays n (expectClosing w opener openLine) := by
  grind [expectClosing]

@[grind ←] theorem stays_name : Stays n name := by
  unfold name
  grind

@[grind ←] theorem stays_atBlockEnd (withUntil : Bool) : Stays n (atBlockEnd withUntil) := by
  unfold atBlockEnd
  grind

/-! ### Declarations and blocks -/

/-- Declarations and blocks are none of the lexemes. -/
theorem stays_update {f : Reader → Reader} (hhere : ∀ r, (f r).here = r.here) (hahead : ∀ r, (f r).ahead = r.ahead) :
    Stays n (modify f : Read Unit) :=
  .modify fun r hr => ⟨(hhere r).symm ▸ hr.here, (hahead r).symm ▸ hr.ahead⟩

@[grind ←] theorem stays_declare (name : Bytes) (kind : VarKind) : Stays n (declare name kind) :=
  stays_update (fun _ => rfl) fun _ => rfl

@[grind ←] theorem stays_openBlock (isLoop : Bool) : Stays n (openBlock isLoop) :=
  stays_update (fun _ => rfl) fun _ => rfl

@[grind ←] theorem stays_markClosing : Stays n markClosing := by
  refine stays_update (fun r => ?_) fun r => ?_ <;> cases r.blocks <;> rfl

@[grind ←] theorem stays_closeBlock : Stays n closeBlock := by
  refine .get fun r hr => ?_
  split
  · exact .pure _
  · dsimp only
    split
    · exact .set ⟨hr.here, hr.ahead⟩
    · split
      · exact .set ⟨hr.here, hr.ahead⟩
      · exact stays_failWith _

@[grind ←] theorem stays_addLabel (name : Bytes) (line : Nat) (last : Bool) : Stays n (addLabel name line last) := by
  refine .get fun r hr => ?_
  split
  · exact stays_failWith _
  · split
    · exact .pure _
    · dsimp only
      split
      · exact stays_failWith _
      · exact .set ⟨hr.here, hr.ahead⟩

@[grind ←] theorem stays_addJump (name : Bytes) (line : Nat) : Stays n (addJump name line) := by
  refine .get fun r hr => ?_
  split
  · exact .pure _
  · split
    · exact .set ⟨hr.here, hr.ahead⟩
    · exact .pure _

@[grind ←] theorem stays_resolve (name : Bytes) : Stays n (resolve name) := by
  refine .get fun r _ => ?_
  split
  · exact .pure _
  · exact stays_failWith _
  · split <;> grind

@[grind ←] theorem stays_checkAssignable (e : Expr) : Stays n (checkAssignable e) := by
  refine .get fun r _ => ?_
  split <;> grind

/-- What nests too deep is refused without a line. -/
@[grind ←] theorem stays_nested {read : Read α} (h : Stays n read) : Stays n (nested read) := by
  refine .get fun r hr => ?_
  have hthrow : Stays n (throw .overflow : Read PUnit) := .of_error (fun _ => rfl) fun _ _ => .inr rfl
  have hread (x : PUnit) : Stays n (do
      set { r with depth := r.depth + 1 }
      let x ← read
      modify fun r => { r with depth := r.depth - 1 }
      return x) :=
    .bind (.set ⟨hr.here, hr.ahead⟩) fun _ => h.bind fun x =>
      .bind (stays_update (fun _ => rfl) fun _ => rfl) fun _ => .pure x
  split
  · exact hthrow.bind hread
  · exact hread ⟨⟩

@[grind ←] theorem stays_inFunction {takesExtra : Bool} {read : Read α} (h : Stays n read) :
    Stays n (inFunction takesExtra read) := by
  refine .get fun r hr => .bind (.set ⟨hr.here, hr.ahead⟩) fun _ => h.bind fun x => ?_
  exact .bind (stays_update (fun _ => rfl) fun _ => rfl) fun _ => .pure x

/-! ### Names -/

@[grind ←] theorem stays_attribute? : Stays n attribute? := by
  unfold attribute?
  grind

@[grind ←] theorem stays_localKind (default : VarKind) (a : Option Bytes) : Stays n (localKind default a) := by
  cases a <;> grind [localKind]

@[grind ←] theorem stays_attributedNames (default : VarKind) (fuel : Nat) : Stays n (attributedNames default fuel) := by
  induction fuel with
  | zero => exact .pure _
  | succ fuel ih => grind [attributedNames]

@[grind ←] theorem stays_moreNames (fuel : Nat) : Stays n (moreNames fuel) := by
  induction fuel with
  | zero => exact .pure _
  | succ fuel ih => grind [moreNames]

@[grind ←] theorem stays_params (fuel : Nat) : Stays n (params fuel) := by
  induction fuel with
  | zero => exact .pure _
  | succ fuel ih =>
    refine (stays_accept "...").bind fun extra => ?_
    split
    · exact .get fun r _ => by split <;> grind
    · refine .get fun r _ => ?_
      split
      · refine stays_advance.bind fun _ => (stays_accept ",").bind fun more => ?_
        split
        · exact ih.bind fun p => .pure _
        · exact .pure _
      · exact stays_failNear _

/-! ### Expressions and statements -/

/-- Whatever is read with some fuel, it is read from lexemes up to a line. -/
structure ReadsWithin (n fuel : Nat) : Prop where
  expr : Stays n (Read.expr fuel)
  subexpr (limit : Nat) : Stays n (Read.subexpr fuel limit)
  operators (limit : Nat) (e : Expr) : Stays n (Read.operators fuel limit e)
  simple : Stays n (Read.simple fuel)
  primary : Stays n (Read.primary fuel)
  suffixed : Stays n (Read.suffixed fuel)
  suffixes (e : Expr) : Stays n (Read.suffixes fuel e)
  bracketed : Stays n (Read.bracketed fuel)
  arguments : Stays n (Read.arguments fuel)
  exprList : Stays n (Read.exprList fuel)
  table : Stays n (Read.table fuel)
  fieldList : Stays n (Read.fieldList fuel)
  field : Stays n (Read.field fuel)
  body (line : Nat) (isMethod : Bool) : Stays n (Read.body fuel line isMethod)
  statements : Stays n (Read.statements fuel)
  blockOf (isLoop : Bool) : Stays n (Read.blockOf fuel isLoop)
  clauses (line : Nat) : Stays n (Read.clauses fuel line)
  loopBody (line : Nat) (names : List Bytes) : Stays n (Read.loopBody fuel line names)
  targets (e : Expr) : Stays n (Read.targets fuel e)
  localVars : Stays n (Read.localVars fuel)
  globalVars : Stays n (Read.globalVars fuel)
  skipVoid : Stays n (Read.skipVoid fuel)
  statement : Stays n (Read.statement fuel)
  functionName (e : Expr) : Stays n (Read.functionName fuel e)
  exprStatement : Stays n (Read.exprStatement fuel)

variable {fuel : Nat}

theorem stays_subexpr (ih : ReadsWithin n fuel) (limit : Nat) : Stays n (subexpr (fuel + 1) limit) := by
  unfold subexpr
  refine stays_nested (.get fun r _ => ?_)
  extract_lets goOn
  have hgoOn (e : Expr) : Stays n (goOn e) := ih.operators limit e
  split <;> grind [ReadsWithin]

theorem stays_field (ih : ReadsWithin n fuel) : Stays n (field (fuel + 1)) := by
  unfold field
  refine .get fun r _ => ?_
  split
  · refine stays_peek.bind fun l => ?_
    split <;> grind [ReadsWithin]
  all_goals grind [ReadsWithin]

theorem stays_body (ih : ReadsWithin n fuel) (line : Nat) (isMethod : Bool) : Stays n (body (fuel + 1) line isMethod) := by
  unfold body
  refine stays_inFunction ((stays_openBlock _).bind fun _ => ?_)
  extract_lets rest params
  have hrest (p : List Bytes × Extra) : Stays n (rest p) := by
    refine .bind (.forM (fun _ => stays_declare _ _) _) fun _ => ?_
    refine .bind (stays_update (fun _ => rfl) fun _ => rfl) fun _ => ?_
    grind [ReadsWithin]
  have hparams (x : PUnit) : Stays n (params x) := by
    refine (stays_expect _).bind fun _ => (stays_at? _).bind fun empty => ?_
    split
    · exact (Stays.pure _).bind hrest
    · exact (stays_params fuel).bind hrest
  split
  · exact (stays_declare _ _).bind hparams
  · exact hparams ⟨⟩

theorem stays_clauses (ih : ReadsWithin n fuel) (line : Nat) : Stays n (clauses (fuel + 1) line) := by
  unfold clauses
  refine stays_advance.bind fun _ => ih.expr.bind fun c => (stays_expect _).bind fun _ => (ih.blockOf _).bind fun yes => ?_
  refine (stays_at? _).bind fun more => ?_
  split
  · exact (ih.clauses line).bind fun no => .pure _
  · refine (stays_accept _).bind fun other => ?_
    split
    · exact (ih.blockOf _).bind fun no => (stays_expectClosing ..).bind fun _ => .pure _
    · exact (stays_expectClosing ..).bind fun _ => .pure _

theorem stays_loopBody (ih : ReadsWithin n fuel) (line : Nat) (names : List Bytes) :
    Stays n (loopBody (fuel + 1) line names) := by
  unfold loopBody
  refine (stays_expect _).bind fun _ => stays_lastLine.bind fun doLine => (stays_openBlock _).bind fun _ => ?_
  extract_lets block
  have hblock (x : PUnit) : Stays n (block x) := by grind [ReadsWithin]
  split
  · exact (stays_declare _ _).bind fun _ => .bind (.forM (fun _ => stays_declare _ _) _) hblock
  · exact hblock ⟨⟩

theorem stays_localVars (ih : ReadsWithin n fuel) : Stays n (localVars (fuel + 1)) := by
  unfold localVars
  refine stays_attribute?.bind fun a => (stays_localKind _ a).bind fun default => ?_
  refine (stays_attributedNames default fuel).bind fun names => ?_
  extract_lets closed declared values
  clear_value closed
  have hdeclared (vs : List Expr) : Stays n (declared vs) := by
    refine stays_lastLine.bind fun l => .bind (.forM (fun _ => stays_declare _ _) _) fun _ => ?_
    split <;> grind
  have hvalues (x : PUnit) : Stays n (values x) := by
    refine (stays_accept _).bind fun given => ?_
    split
    · exact ih.exprList.bind hdeclared
    · exact (Stays.pure _).bind hdeclared
  split
  · exact (stays_fail _).bind hvalues
  · exact hvalues ⟨⟩

theorem stays_globalVars (ih : ReadsWithin n fuel) : Stays n (globalVars (fuel + 1)) := by
  unfold globalVars
  refine (stays_accept _).bind fun isFunction => ?_
  split
  · grind [ReadsWithin]
  · extract_lets asGlobal
    have hglobal (k : VarKind) : Stays n (asGlobal k) := by cases k <;> grind
    have hdeclare (kinds : List (Bytes × VarKind)) : Stays n (kinds.forM fun p => declare p.1 p.2) :=
      .forM (fun _ => stays_declare _ _) _
    refine stays_attribute?.bind fun a => (stays_localKind _ a).bind fun default => (hglobal default).bind fun _ => ?_
    refine (stays_accept _).bind fun all => ?_
    split
    · grind
    · refine (stays_attributedNames default fuel).bind fun names => ?_
      refine .bind (.mapM (fun p : Bytes × VarKind => (hglobal p.2).bind fun _ => .pure _) _) fun kinds => ?_
      refine (stays_accept _).bind fun given => ?_
      split
      · refine .get fun r _ => ih.exprList.bind fun vs => stays_lastLine.bind fun l => ?_
        exact (hdeclare kinds).bind fun _ => .pure _
      · exact (hdeclare kinds).bind fun _ => .pure _

theorem stays_statement (ih : ReadsWithin n fuel) : Stays n (statement (fuel + 1)) := by
  unfold statement
  refine stays_nested (stays_line.bind fun start => .get fun r _ => ?_)
  split
  -- the loops that declare variables or that keep their blocks open, and what returns
  case h_5 =>
    refine (stays_openBlock _).bind fun _ => stays_advance.bind fun _ => stays_name.bind fun m => ?_
    refine (stays_accept _).bind fun numeric => ?_
    split
    · refine ih.expr.bind fun start' => (stays_expect _).bind fun _ => ih.expr.bind fun limit => ?_
      refine (stays_accept _).bind fun stepped => ?_
      extract_lets body
      have hbody (step : Option Expr) : Stays n (body step) := (ih.loopBody _ _).bind fun p => by grind
      split
      · exact (ih.expr.map).bind hbody
      · exact (Stays.pure _).bind hbody
    · refine (stays_at? _).bind fun comma => (stays_at? _).bind fun isIn => ?_
      split
      · refine (stays_moreNames fuel).bind fun more => (stays_expect _).bind fun _ => ih.exprList.bind fun vs => ?_
        exact stays_markClosing.bind fun _ => (ih.loopBody _ _).bind fun p => by grind
      · exact stays_failNear _
  case h_6 =>
    refine stays_advance.bind fun _ => (stays_openBlock _).bind fun _ => (stays_openBlock _).bind fun _ => ?_
    refine ih.statements.bind fun b => (stays_expectClosing ..).bind fun _ => ih.expr.bind fun c => ?_
    exact stays_closeBlock.bind fun _ => stays_closeBlock.bind fun _ => .pure _
  case h_10 =>
    refine stays_advance.bind fun _ => (stays_atBlockEnd _).bind fun atEnd => (stays_at? _).bind fun empty => ?_
    extract_lets returned
    have hreturned (vs : List Expr) : Stays n (returned vs) := by
      refine .bind (Stays.map (stays_accept _)) fun _ => .get fun r _ => ?_
      split <;> exact .pure _
    split
    · exact (Stays.pure _).bind hreturned
    · exact ih.exprList.bind hreturned
  all_goals grind [ReadsWithin]

/-- Every reader of expressions and statements stays within the line, by induction on the fuel. -/
theorem readsWithin (n fuel : Nat) : ReadsWithin n fuel := by
  induction fuel with
  | zero =>
    constructor <;> intros <;> simp only [expr, subexpr, operators, simple, primary, suffixed, suffixes, bracketed, arguments,
      exprList, table, fieldList, field, body, statements, blockOf, clauses, loopBody, targets, localVars, globalVars, skipVoid,
      statement, functionName, exprStatement, stays_fail]
  | succ fuel ih =>
    constructor
    case expr =>
      unfold Read.expr
      grind [ReadsWithin]
    case subexpr => exact stays_subexpr ih
    case operators =>
      intro limit e
      unfold Read.operators
      grind [ReadsWithin]
    case simple =>
      unfold Read.simple
      grind [ReadsWithin]
    case primary =>
      unfold Read.primary
      grind [ReadsWithin]
    case suffixed =>
      unfold Read.suffixed
      grind [ReadsWithin]
    case suffixes =>
      intro e
      unfold Read.suffixes
      grind [ReadsWithin]
    case bracketed =>
      unfold Read.bracketed
      grind [ReadsWithin]
    case arguments =>
      unfold Read.arguments
      grind [ReadsWithin]
    case exprList =>
      unfold Read.exprList
      grind [ReadsWithin]
    case table =>
      unfold Read.table
      grind [ReadsWithin]
    case fieldList =>
      unfold Read.fieldList
      grind [ReadsWithin]
    case field => exact stays_field ih
    case body => exact stays_body ih
    case statements =>
      unfold Read.statements
      grind [ReadsWithin]
    case blockOf =>
      intro isLoop
      unfold Read.blockOf
      grind [ReadsWithin]
    case clauses => exact stays_clauses ih
    case loopBody => exact stays_loopBody ih
    case targets =>
      intro e
      unfold Read.targets
      grind [ReadsWithin]
    case localVars => exact stays_localVars ih
    case globalVars => exact stays_globalVars ih
    case skipVoid =>
      unfold Read.skipVoid
      grind [ReadsWithin]
    case statement => exact stays_statement ih
    case functionName =>
      intro e
      unfold Read.functionName
      grind [ReadsWithin]
    case exprStatement =>
      unfold Read.exprStatement
      grind [ReadsWithin]

/-- So does the reader of a chunk. -/
theorem stays_main (fuel : Nat) : Stays n (main fuel) := by
  refine (stays_openBlock _).bind fun _ => (readsWithin n fuel).statements.bind fun b => .get fun r _ => ?_
  split <;> grind

end Read

/-- A refusal of a chunk names one of its lines, or is that of what nests too deep. -/
theorem Chunk.parse_names {b : Bytes} {e : Malformed} (h : Chunk.parse b = .error e) : e.Names (1 + Lexeme.breaks b) := by
  have hall : ∀ x ∈ Lexeme.ofBytes b, 1 ≤ Lexeme.reported x ∧ Lexeme.reported x ≤ 1 + Lexeme.breaks b :=
    fun _ hx => Lexeme.ofBytes_line hx
  rw [parse] at h
  split at h
  · next e' rest heq =>
    obtain rfl := Except.error.inj h
    exact .inl (hall (.error e') (heq ▸ List.mem_cons_self ..))
  · cases h
  · next first ahead heq =>
    rw [heq, List.forall_mem_cons] at hall
    dsimp only at h
    split at h
    · cases h
    · next e' hrun =>
      obtain rfl := Except.error.inj h
      exact (Read.stays_main _).refuses ⟨hall.1, hall.2⟩ hrun

end HostedLua.Lua
