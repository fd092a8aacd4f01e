import Scriptlet.Proofs.Code.Uniform

/-!
# Declarations and statements that do not depend on places

The rules for declarations and statements follow themselves as those for expressions and
types do. So all rules do, for any number of steps.
-/

namespace Scriptlet

namespace Code

namespace GoReader

variable {tail : List Symbol} {steps more : Nat}

namespace Uniform

private theorem declaredType_succ (rules : Uniform tail steps more) :
    Follows tail (Prod.map (Members.erase GoExpr.erase) (Prod.map id GoExpr.erase))
      (GoReader.declaredType (steps + 1)) (GoReader.declaredType (more + 1)) := by
  rw [GoReader.declaredType, GoReader.declaredType]
  refine .bind_id (.optional _) fun opens => ?_
  extract_lets goOn goOn'
  have joined (start start' : Members GoExpr ⊕ GoExpr)
      (same : start.map (Members.erase GoExpr.erase) GoExpr.erase =
        start'.map (Members.erase GoExpr.erase) GoExpr.erase) :
      Follows tail (Prod.map (Members.erase GoExpr.erase) (Prod.map id GoExpr.erase))
        (goOn start) (goOn' start') := by
    cases start <;> cases start' <;>
      simp only [Sum.map_inl, Sum.map_inr, Sum.inl.injEq, Sum.inr.injEq, reduceCtorEq] at same
    · exact .bind_id (.optional _) fun _ => rules.type.bind fun _ _ same' => .pure (by
        simp [same, same'])
    · exact .pure (by simp [same])
  exact .ite Iff.rfl (rules.parametersOrArray.bind joined) (joined (.inl {}) (.inl {}) rfl)

private theorem spec_succ (rules : Uniform tail steps more) (atMost : steps ≤ more) (keyword : String) :
    Follows tail GoSpec.erase (GoReader.spec keyword (steps + 1))
      (GoReader.spec keyword (more + 1)) := by
  rw [GoReader.spec, GoReader.spec]
  refine .ite Iff.rfl ?_ (.ite Iff.rfl ?_ ?_)
  · refine .bind_id .peek fun next => ?_
    extract_lets goOn
    have joined (name name' : Option Label)
        (alike : name.map Label.erase = name'.map Label.erase) :
        Follows tail GoSpec.erase (goOn name) (goOn name') := by
      refine .bind .tag? fun path path' same => ?_
      cases path <;> cases path' <;> simp at same
      · exact .failure
      · exact .bind .finish fun _ _ _ => .pure (by simp [GoSpec.erase, alike, same])
    split
    · exact .bind (.some .label) joined
    · exact .bind_id (.sign _) fun _ => .bind .lastPlace fun place place' _ =>
        joined (some ⟨place, "."⟩) (some ⟨place', "."⟩) rfl
    · exact joined none none rfl
  · refine .bind .label fun name name' alike => rules.declaredType.bind_pair ?_
    rintro parameters parameters' ⟨isAlias, type⟩ ⟨isAlias', type'⟩ same same'
    simp only [Prod.map_apply, id_eq, Prod.mk.injEq] at same'
    exact .bind .finish fun _ _ _ => .pure (by simp [GoSpec.erase, alike, same, same'])
  · refine .bind .label fun name name' alike => (Follows.moreNames atMost).bind
      fun names names' same => .bind_id .peek fun next => ?_
    extract_lets hasType goOn goOn'
    have joined (type type' : Option GoExpr)
        (typed : type.map GoExpr.erase = type'.map GoExpr.erase) :
        Follows tail GoSpec.erase (goOn type) (goOn' type') := by
      refine .bind_id (.optional _) fun stores => ?_
      extract_lets store store'
      have stored (values values' : List (Member GoExpr))
          (valued : values.map (Member.erase GoExpr.erase) =
            values'.map (Member.erase GoExpr.erase)) :
          Follows tail GoSpec.erase (store values) (store' values') :=
        .bind .finish fun _ _ _ => .pure (by simp [GoSpec.erase, alike, same, typed, valued])
      exact .ite Iff.rfl (((rules.expr 1).list atMost).bind stored) (stored [] [] rfl)
    exact .ite Iff.rfl (rules.type.some.bind joined) (joined none none rfl)

private theorem declarations_succ (rules : Uniform tail steps more) (atMost : steps ≤ more)
    (keyword : String) :
    Follows tail GoDecl.erase (GoReader.declarations keyword (steps + 1))
      (GoReader.declarations keyword (more + 1)) := by
  rw [GoReader.declarations, GoReader.declarations]
  refine .bind_id (.exactly _) fun _ => .bind .lastPlace fun _ _ _ =>
    .bind_id (.optional _) fun opens => .ite Iff.rfl ?_ ?_
  · refine .bind .lastPlace fun _ _ _ => ((rules.spec keyword).many atMost).bind
      fun specs specs' alike => .bind_id (.sign _) fun _ => .bind .lastPlace fun _ _ _ =>
        .bind .finish fun _ _ _ => .pure (by simp [GoDecl.erase, alike])
  · exact (rules.spec keyword).bind fun _ _ alike => .pure (by simp [GoDecl.erase, alike])

private theorem short_succ (rules : Uniform tail steps more) (atMost : steps ≤ more)
    (labels ranges : Bool) :
    Follows tail Short.erase (GoReader.short labels ranges (steps + 1))
      (GoReader.short labels ranges (more + 1)) := by
  rw [GoReader.short, GoReader.short]
  refine ((rules.expr 1).list atMost).bind fun left left' alike => .bind_id .peek fun next => ?_
  generalize next.getD .lineEnd = symbol
  refine .ite Iff.rfl ?_ ?_
  · refine .bind_id (.exactly _) fun _ => .bind .lastPlace fun _ _ _ =>
      .bind_id .peek fun next => .ite Iff.rfl ?_ ?_
    · exact .bind_id (.keyword _) fun _ => .bind .lastPlace fun _ _ _ =>
        (rules.expr 1).bind fun _ _ same => .pure (by simp [Short.erase, alike, same])
    · exact ((rules.expr 1).list atMost).bind fun _ _ same => .pure (by
        simp [Short.erase, GoStmt.erase, alike, same])
  · obtain _ | ⟨only, _ | ⟨second, others⟩⟩ := left <;>
      obtain _ | ⟨only', _ | ⟨second', others'⟩⟩ := left' <;>
      simp only [List.map_nil, List.map_cons, List.cons.injEq, reduceCtorEq, and_false, and_true] at alike
    · exact .failure
    · have same : only.content.erase = only'.content.erase := congrArg (·.content) alike
      split
      · next single =>
        cases single
        obtain ⟨label, label', named, named', spelled⟩ | ⟨unnamed, unnamed'⟩ :=
          GoExpr.name_or_ne_name same
        · rw [named, named']
          cases labels with
          | false => exact .failure
          | true =>
            exact .bind_id (.sign _) fun _ => .bind .lastPlace fun _ _ _ =>
              rules.statement.bind fun _ _ same => .pure (by
                simp [Short.erase, GoStmt.erase, spelled, same])
        · split
          · next named => exact absurd named (unnamed _)
          · exact .failure
      · next single =>
        cases single
        exact .bind_id (.sign _) fun _ => .bind .lastPlace fun _ _ _ =>
          (rules.expr 1).bind fun _ _ same' => .pure (by
            simp [Short.erase, GoStmt.erase, same, same'])
      · next single =>
        cases single
        exact .bind_id (.sign _) fun _ => .bind .lastPlace fun _ _ _ => .pure (by
          simp [Short.erase, GoStmt.erase, same])
      · next single =>
        cases single
        exact .bind_id (.sign _) fun _ => .bind .lastPlace fun _ _ _ => .pure (by
          simp [Short.erase, GoStmt.erase, same])
      · next single _ _ _ _ =>
        cases single
        exact .pure (by simp [Short.erase, GoStmt.erase, same])
      · exact .failure
    · exact .failure

private theorem headStmt_succ (rules : Uniform tail steps more) :
    Follows tail GoStmt.erase (GoReader.headStmt (steps + 1)) (GoReader.headStmt (more + 1)) := by
  rw [GoReader.headStmt, GoReader.headStmt]
  refine (rules.short false false).bind fun head head' alike => .lift ?_
  rw [← Short.stmt?_erase, alike, Short.stmt?_erase]

private theorem statement_succ (rules : Uniform tail steps more) (atMost : steps ≤ more) :
    Follows tail GoStmt.erase (GoReader.statement (steps + 1))
      (GoReader.statement (more + 1)) := by
  rw [GoReader.statement, GoReader.statement]
  have declared (keyword : String) : Follows tail GoStmt.erase
      (GoStmt.declaration <$> GoReader.declarations keyword steps)
      (GoStmt.declaration <$> GoReader.declarations keyword more) :=
    (rules.declarations keyword).map fun _ _ alike => by simp [GoStmt.erase, alike]
  refine .bind .nextPlace fun place place' _ => .bind_id .peek fun next => ?_
  split
  · exact declared "const"
  · exact declared "type"
  · exact declared "var"
  · exact rules.conditional
  · exact rules.switch
  · exact rules.loop
  · exact .bind_id (.keyword _) fun _ => (rules.ready.cases atMost).bind fun _ _ alike =>
      .bind .finish fun _ _ _ => .pure (by simp [GoStmt.erase, alike])
  · refine .bind_id (.keyword _) fun _ => .bind_id .peek fun next => ?_
    extract_lets isDone goOn goOn'
    have joined (values values' : List (Member GoExpr))
        (alike : values.map (Member.erase GoExpr.erase) =
          values'.map (Member.erase GoExpr.erase)) :
        Follows tail GoStmt.erase (goOn values) (goOn' values') :=
      .bind .finish fun _ _ _ => .pure (by simp [GoStmt.erase, alike])
    exact .ite Iff.rfl (joined [] [] rfl) (((rules.expr 1).list atMost).bind joined)
  · refine .ite Iff.rfl ?_ (.ite Iff.rfl ?_ rules.simpleStmt)
    · refine .bind_id (.keyword _) fun _ => (rules.expr 1).bind fun call call' alike => ?_
      refine .ite ?_ .failure (.bind .finish fun _ _ _ => .pure (by simp [GoStmt.erase, alike]))
      rw [GoExpr.eq_of_erase GoExpr.isCall_erase alike]
    · refine .bind_id (.keyword _) fun _ => .bind_id .peek fun next => ?_
      extract_lets isNamed goOn goOn'
      have joined (target target' : Option Label)
          (alike : target.map Label.erase = target'.map Label.erase) :
          Follows tail GoStmt.erase (goOn target) (goOn' target') :=
        .bind .finish fun _ _ _ => .pure (by simp [GoStmt.erase, alike])
      exact .ite Iff.rfl (.bind (.some .label) joined) (joined none none rfl)
  · exact (rules.statement.block atMost).bind fun _ _ alike => .bind .finish fun _ _ _ =>
      .pure (by simp [GoStmt.erase, alike])
  · exact .pure rfl
  · exact .ite Iff.rfl (.bind_id .semicolon fun _ => .pure rfl) rules.simpleStmt
  · exact .failure

private theorem simpleStmt_succ (rules : Uniform tail steps more) :
    Follows tail GoStmt.erase (GoReader.simpleStmt (steps + 1))
      (GoReader.simpleStmt (more + 1)) := by
  rw [GoReader.simpleStmt, GoReader.simpleStmt]
  refine .bind_id .peek fun next => .ite Iff.rfl .failure ?_
  refine (rules.short true false).bind fun short short' alike => ?_
  have same : short.stmt?.map GoStmt.erase = short'.stmt?.map GoStmt.erase := by
    rw [← Short.stmt?_erase, alike, Short.stmt?_erase]
  refine (Follows.lift same).bind fun stmt stmt' same => ?_
  refine .ite ?_ (.bind .finish fun _ _ _ => .pure same) (.pure same)
  rw [← GoStmt.isLabeled_erase, same, GoStmt.isLabeled_erase]

private theorem conditional_succ (rules : Uniform tail steps more) (atMost : steps ≤ more) :
    Follows tail GoStmt.erase (GoReader.conditional (steps + 1))
      (GoReader.conditional (more + 1)) := by
  rw [GoReader.conditional, GoReader.conditional]
  refine .bind_id (.keyword _) fun _ => .bind .lastPlace fun _ _ _ => ?_
  refine .bind_pair (.within true
    (?_ : Follows tail (Prod.map (Option.map GoStmt.erase) (Option.map GoStmt.erase)) _ _)) ?_
  · refine .bind_id .peek fun next => ?_
    extract_lets goOn goOn'
    have joined (first first' : Option GoStmt)
        (alike : first.map GoStmt.erase = first'.map GoStmt.erase) :
        Follows tail (Prod.map (Option.map GoStmt.erase) (Option.map GoStmt.erase)) (goOn first)
          (goOn' first') := by
      refine .bind_id .peek fun next => .ite Iff.rfl (.pure (by simp [alike])) ?_
      exact .bind_id .semicolon fun _ => rules.headStmt.bind fun _ _ same => .pure (by
        simp [alike, same])
    exact .ite Iff.rfl (joined none none rfl) (rules.headStmt.some.bind joined)
  · intro first first' condition condition' alike same
    have asked : (condition.bind exprOf?).map GoExpr.erase =
        (condition'.bind exprOf?).map GoExpr.erase := by
      rw [map_bind_exprOf?, map_bind_exprOf?, same]
    refine (Follows.lift asked).bind fun condition condition' same =>
      (rules.statement.block atMost).bind fun body body' same' => ?_
    refine .bind_id (.optional _) fun hasElse => ?_
    extract_lets goOn goOn'
    have joined (otherwise otherwise' : Option GoStmt)
        (alike' : otherwise.map GoStmt.erase = otherwise'.map GoStmt.erase) :
        Follows tail GoStmt.erase (goOn otherwise) (goOn' otherwise') :=
      .pure (by simp [GoStmt.erase, alike, GoExpr.erase_bare, same, same', alike'])
    refine .ite Iff.rfl (.bind_id .peek fun next => .ite Iff.rfl ?_ ?_) ?_
    · exact rules.conditional.some.bind joined
    · exact (rules.statement.block atMost).bind fun body body' same => .bind .finish fun _ _ _ =>
        joined (some (.block body)) (some (.block body')) (by simp [GoStmt.erase, same])
    · exact .bind .finish fun _ _ _ => joined none none rfl

private theorem switch_succ (rules : Uniform tail steps more) (atMost : steps ≤ more) :
    Follows tail GoStmt.erase (GoReader.switch (steps + 1)) (GoReader.switch (more + 1)) := by
  rw [GoReader.switch, GoReader.switch]
  refine .bind_id (.keyword _) fun _ => .bind .lastPlace fun _ _ _ => ?_
  extract_lets isBlock goOn goOn'
  have looks : Follows tail id isBlock isBlock := .bind_id .peek fun _ => .pure rfl
  refine .bind_pair (.within true
    (?_ : Follows tail (Prod.map (Option.map GoStmt.erase) (Option.map GoStmt.erase)) _ _)) ?_
  · have joined (value value' : Option GoStmt)
        (alike : value.map GoStmt.erase = value'.map GoStmt.erase) :
        Follows tail (Prod.map (Option.map GoStmt.erase) (Option.map GoStmt.erase)) (goOn value)
          (goOn' value') := by
      refine .bind_id .peek fun next => .ite Iff.rfl ?_ (.pure (by simp [alike]))
      refine .bind_id .semicolon fun _ => .bind_id looks fun opens => .ite Iff.rfl ?_ ?_
      · exact .pure_bind (.pure (by simp [alike]))
      · exact rules.headStmt.some.bind fun _ _ same => .pure (by simp [alike, same])
    refine .bind_id looks fun opens => .ite Iff.rfl (.pure rfl) (.bind_id .peek fun next => ?_)
    exact .ite Iff.rfl (joined none none rfl) (rules.headStmt.some.bind joined)
  · intro first first' value value' alike same
    have guarded : ((value.map isTypeGuard).getD (some false)).map id =
        ((value'.map isTypeGuard).getD (some false)).map id := by
      rw [isTypeGuard_eq_of_erase same]
    refine .bind_id (.lift guarded) fun isType => (rules.clause.cases atMost).bind
      fun body body' same' => .bind .finish fun _ _ _ => ?_
    cases value <;> cases value' <;>
      simp only [Option.map_none, Option.map_some, reduceCtorEq, Option.some.injEq] at same
    · exact .pure (by simp [GoStmt.erase, alike, same'])
    · refine .ite Iff.rfl (.pure (by simp [GoStmt.erase, alike, same, same'])) ?_
      have asked := congrArg exprOf? same
      rw [exprOf?_erase, exprOf?_erase] at asked
      exact (Follows.lift asked).bind fun value value' same => .pure (by
        simp [GoStmt.erase, GoExpr.erase_bare, alike, same, same'])

private theorem clause_succ (rules : Uniform tail steps more) (atMost : steps ≤ more) :
    Follows tail GoStmt.erase (GoReader.clause (steps + 1)) (GoReader.clause (more + 1)) := by
  rw [GoReader.clause, GoReader.clause]
  refine .bind .nextPlace fun place place' _ => .bind_id (.optional _) fun isCase => ?_
  extract_lets goOn goOn'
  have joined (values values' : List (Member GoExpr))
      (alike : values.map (Member.erase GoExpr.erase) = values'.map (Member.erase GoExpr.erase)) :
      Follows tail GoStmt.erase (goOn values) (goOn' values') :=
    .bind_id (.sign _) fun _ => .bind .lastPlace fun _ _ _ =>
      (rules.statement.many atMost).bind fun _ _ same => .pure (by
        simp [GoStmt.erase, alike, same])
  refine .ite Iff.rfl (((rules.expr 1).list atMost).bind joined) ?_
  exact .bind_id (.keyword _) fun _ => joined [] [] rfl

private theorem ready_succ (rules : Uniform tail steps more) (atMost : steps ≤ more) :
    Follows tail GoStmt.erase (GoReader.ready (steps + 1)) (GoReader.ready (more + 1)) := by
  rw [GoReader.ready, GoReader.ready]
  refine .bind .nextPlace fun place place' _ => .bind_id (.optional _) fun isCase => ?_
  extract_lets goOn goOn'
  have joined (stmt stmt' : Option GoStmt)
      (alike : stmt.map GoStmt.erase = stmt'.map GoStmt.erase) :
      Follows tail GoStmt.erase (goOn stmt) (goOn' stmt') :=
    .bind_id (.sign _) fun _ => .bind .lastPlace fun _ _ _ =>
      (rules.statement.many atMost).bind fun _ _ same => .pure (by
        simp [GoStmt.erase, alike, same])
  refine .ite Iff.rfl ?_ (.bind_id (.keyword _) fun _ => joined none none rfl)
  refine ((rules.expr 1).list atMost).bind fun left left' alike => .bind_id .peek fun next => ?_
  have only : (single? left).map GoExpr.erase = (single? left').map GoExpr.erase := by
    rw [map_single?, map_single?, alike]
  split
  · refine .ite Iff.rfl ?_ (.ite Iff.rfl (.ite ?_ .failure ?_) ?_)
    · exact (Follows.lift only).bind fun _ _ same => .bind_id (.sign _) fun _ =>
        .bind .lastPlace fun _ _ _ => (rules.expr 1).bind fun _ _ same' => joined _ _ (by
          simp [GoStmt.erase, same, same'])
    · rw [show left.length = left'.length by simpa using congrArg List.length alike]
    · exact .bind_id (.sign _) fun _ => .bind .lastPlace fun _ _ _ =>
        (rules.expr 1).member.bind fun _ _ same => joined _ _ (by
          simp [GoStmt.erase, alike, same])
    · exact (Follows.lift only).bind fun _ _ same => joined _ _ (by simp [GoStmt.erase, same])
  · exact .failure

private theorem loop_succ (rules : Uniform tail steps more) (atMost : steps ≤ more) :
    Follows tail GoStmt.erase (GoReader.loop (steps + 1)) (GoReader.loop (more + 1)) := by
  rw [GoReader.loop, GoReader.loop]
  refine .bind_id (.keyword _) fun _ => .bind .lastPlace fun _ _ _ => ?_
  extract_lets isBlock goOn goOn'
  have looks : Follows tail id isBlock isBlock := .bind_id .peek fun _ => .pure rfl
  refine .bind_pair (.within true
    (?_ : Follows tail (Prod.map (Option.map GoStmt.erase)
      (Prod.map (Option.map Short.erase) (Option.map GoStmt.erase))) _ _)) ?_
  · have joined (head head' : Option Short)
        (alike : head.map Short.erase = head'.map Short.erase) :
        Follows tail (Prod.map (Option.map GoStmt.erase)
          (Prod.map (Option.map Short.erase) (Option.map GoStmt.erase))) (goOn head)
          (goOn' head') := by
      have started : (head.bind (·.stmt?)).map GoStmt.erase =
          (head'.bind (·.stmt?)).map GoStmt.erase := by
        rw [Short.map_bind_stmt?, Short.map_bind_stmt?, alike]
      have stepping (middle middle' : Option GoStmt)
          (same : middle.map GoStmt.erase = middle'.map GoStmt.erase) :
          (middle.map Short.stmt).map Short.erase = (middle'.map Short.stmt).map Short.erase := by
        rw [Short.map_map_stmt, Short.map_map_stmt, same]
      refine .ite (by rw [Short.isRange_eq_of_erase alike]) (.pure (by simp [alike]))
        (.bind_id .peek fun next => .ite Iff.rfl ?_ (.pure (by simp [alike])))
      refine .bind_id .semicolon fun _ => .bind_id .peek fun next => ?_
      extract_lets step step'
      have stepped (middle middle' : Option GoStmt)
          (same : middle.map GoStmt.erase = middle'.map GoStmt.erase) :
          Follows tail (Prod.map (Option.map GoStmt.erase)
            (Prod.map (Option.map Short.erase) (Option.map GoStmt.erase))) (step middle)
            (step' middle') := by
        refine .bind .finish fun _ _ _ => .bind_id looks fun opens => .ite Iff.rfl ?_ ?_
        · exact .pure_bind (.pure (by simp [started, stepping middle middle' same]))
        · exact rules.headStmt.some.bind fun _ _ same' => .pure (by
            simp [started, stepping middle middle' same, same'])
      exact .ite Iff.rfl (stepped none none rfl) (rules.headStmt.some.bind stepped)
    refine .bind_id looks fun opens => .ite Iff.rfl (.pure rfl) (.bind_id .peek fun next =>
      .bind_id (.optional _) fun ranges => .ite Iff.rfl (joined none none rfl) (.ite Iff.rfl ?_ ?_))
    · exact .bind .lastPlace fun _ _ _ => (rules.expr 1).bind fun _ _ same =>
        joined (some (.range _ _ _ _)) (some (.range _ _ _ _)) (by simp [Short.erase, same])
    · exact (rules.short false true).some.bind joined
  · rintro first first' ⟨middle, last⟩ ⟨middle', last'⟩ alike same
    simp only [Prod.map_apply, Prod.mk.injEq] at same
    refine (rules.statement.block atMost).bind fun body body' same' => .bind .finish fun _ _ _ => ?_
    obtain _ | middle | ⟨left, stored, range, list⟩ := middle <;>
      obtain _ | middle' | ⟨left', stored', range', list'⟩ := middle' <;>
      simp only [Option.map_none, Option.map_some, reduceCtorEq, Option.some.injEq, Short.erase, false_and, Short.stmt.injEq, Short.range.injEq] at same
    · exact .pure (by simp [GoStmt.erase, alike, same, same'])
    · have asked := congrArg exprOf? same.1
      rw [exprOf?_erase, exprOf?_erase] at asked
      exact (Follows.lift asked).bind fun value value' asked => .pure (by
        simp [GoStmt.erase, GoExpr.erase_bare, alike, same, same', asked])
    · obtain ⟨⟨stores, signs, -, lists⟩, steps⟩ := same
      have contents : (left.map (·.content)).map GoExpr.erase =
          (left'.map (·.content)).map GoExpr.erase := by
        simpa [List.map_map, Function.comp_def] using congrArg (List.map (·.content)) stores
      dsimp only
      generalize left.map (·.content) = keys at contents ⊢
      generalize left'.map (·.content) = keys' at contents ⊢
      obtain _ | ⟨key, _ | ⟨value, _ | ⟨third, others⟩⟩⟩ := keys <;>
        obtain _ | ⟨key', _ | ⟨value', _ | ⟨third', others'⟩⟩⟩ := keys' <;>
        simp only [List.map_nil, List.map_cons, List.cons.injEq, reduceCtorEq, and_false, and_true] at contents
      · exact .pure (by simp [GoStmt.erase, GoExpr.erase_bare, signs, lists, same'])
      · exact .pure (by simp [GoStmt.erase, GoExpr.erase_bare, signs, lists, same', contents])
      · exact .pure (by simp [GoStmt.erase, GoExpr.erase_bare, signs, lists, same', contents])
      · exact .failure

end Uniform

/-- Reading does not depend on places, on what is behind, or on the number of steps left. -/
theorem uniform (atMost : steps ≤ more) : Uniform tail steps more := by
  induction steps generalizing more with
  | zero => constructor <;> intros <;> exact .failure
  | succ steps ih =>
    obtain ⟨more, rfl⟩ := Nat.exists_eq_add_of_le' (Nat.zero_lt_of_lt atMost)
    have fewer : steps ≤ more := Nat.le_of_succ_le_succ atMost
    have rules : Uniform tail steps more := ih fewer
    exact {
      expr := rules.expr_succ
      binaryTail := rules.binaryTail_succ
      unary := rules.unary_succ
      operand := rules.operand_succ fewer
      primaryTail := rules.primaryTail_succ fewer
      callTail := rules.callTail_succ
      indexTail := rules.indexTail_succ fewer
      bound := rules.bound_succ
      part := rules.part_succ
      partContent := rules.partContent_succ fewer
      type := rules.type_succ fewer
      namedType := rules.namedType_succ fewer
      arrayTail := rules.arrayTail_succ
      arrayOrArguments := rules.arrayOrArguments_succ fewer
      signature := rules.signature_succ fewer
      parameter := rules.parameter_succ
      namedFields := rules.namedFields_succ fewer
      field := rules.field_succ
      element := rules.element_succ fewer
      unionTail := rules.unionTail_succ
      term := rules.term_succ
      constraint := rules.constraint_succ
      typeParameters := rules.typeParameters_succ fewer
      moreParameters := rules.moreParameters_succ
      parametersOrArray := rules.parametersOrArray_succ
      declaredType := rules.declaredType_succ
      spec := rules.spec_succ fewer
      declarations := rules.declarations_succ fewer
      short := rules.short_succ fewer
      headStmt := rules.headStmt_succ
      statement := rules.statement_succ fewer
      simpleStmt := rules.simpleStmt_succ
      conditional := rules.conditional_succ fewer
      switch := rules.switch_succ fewer
      clause := rules.clause_succ fewer
      ready := rules.ready_succ fewer
      loop := rules.loop_succ fewer }

private theorem functionDeclaration_follows (atMost : steps ≤ more) :
    Follows tail GoDecl.erase (functionDeclaration steps) (functionDeclaration more) := by
  have rules : Uniform tail steps more := uniform atMost
  refine .bind_id (.keyword _) fun _ => .bind .lastPlace fun place place' _ =>
    .bind_id .peek fun next => ?_
  extract_lets isMethod goOn goOn'
  have joined (receiver receiver' : Members GoExpr)
      (alike : receiver.erase GoExpr.erase = receiver'.erase GoExpr.erase) :
      Follows tail GoDecl.erase (goOn receiver) (goOn' receiver') := by
    refine .bind .label fun name name' named => .bind_id (.optional _) fun opens => ?_
    extract_lets sign sign'
    have signed (types types' : Members GoExpr)
        (same : types.erase GoExpr.erase = types'.erase GoExpr.erase) :
        Follows tail GoDecl.erase (sign types) (sign' types') := by
      refine .ite (by rw [Members.isEmpty_eq_of_erase same]) .failure
        (rules.signature.bind_pair fun taken taken' given given' takes gives => ?_)
      refine .bind_id .peek fun next => .ite Iff.rfl ?_ ?_
      · exact (rules.statement.block atMost).bind fun _ _ done => .bind .lastLine fun _ _ _ =>
          .bind .finish fun _ _ _ => .pure (by
            simp [GoDecl.erase, alike, named, same, takes, gives, done])
      · exact .bind .lastLine fun _ _ _ => .bind .finish fun _ _ _ => .pure (by
          simp [GoDecl.erase, alike, named, same, takes, gives])
    refine .ite Iff.rfl ?_ (signed {} {} rfl)
    exact .bind .lastPlace fun _ _ _ => (rules.typeParameters rfl).bind signed
  exact .ite Iff.rfl ((rules.parameter.parameters atMost).bind joined) (joined {} {} rfl)

/-- With more steps, a declaration is read as with fewer. -/
theorem declaration_follows (atMost : steps ≤ more) :
    Follows tail GoDecl.erase (declaration steps) (declaration more) := by
  refine .bind_id .peek fun next => ?_
  split
  · exact .ite Iff.rfl (functionDeclaration_follows atMost)
      (.ite Iff.rfl ((uniform atMost).declarations _) .failure)
  · exact .failure

end GoReader

end Code

end Scriptlet
