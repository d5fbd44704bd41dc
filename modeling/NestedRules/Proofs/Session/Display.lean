import NestedRules.Proofs.Expression.Surroundings
import NestedRules.Proofs.Rule.Acceptance
import NestedRules.Proofs.Rule.Standing
import NestedRules.Session.Basic

namespace NestedRules

theorem Frame.allEnabled_iff {frames : List Frame} :
    Frame.AllEnabled frames ↔ ¬ ∃ fr ∈ frames, fr.bare.isDisabled = true := by
  simp [AllEnabled, bare, Node.isDisabled]

namespace Rule

variable {r : Rule} {id : String} {f : Filter}

theorem Valid.filter_isOff_iff {frames : List Frame} (valid : r.Valid)
    (rebuilt : Frame.around frames (.filter f) = r.node) :
    r.Within Node.isDisabled f.id ↔ f.isDisabled = true ∨ ¬ Frame.AllEnabled frames := by
  rw [Frame.allEnabled_iff, not_not]
  exact valid.within_iff_around rebuilt Node.isDisabled_bare

theorem Valid.exists_gap_of_filter (valid : r.Valid) (found : r.node? id = some (.filter f)) :
    f.id = id ∧ ∃ frames, Frame.around frames (.filter f) = r.node ∧
      ∀ field operator value, ∃ updated,
        r.updateFilter id ({ · with field, operator, value }) = .ok updated ∧
          updated.node = Frame.around frames (.filter { f with field, operator, value }) := by
  obtain ⟨p, located, kind, -⟩ := exists_focus?_filter found
  obtain ⟨rebuilt, same⟩ := around_of_locate?_inside located
  rw [kind] at rebuilt same
  obtain rfl : f.id = id := same
  refine ⟨rfl, p.frames, rebuilt, fun field operator value => ?_⟩
  obtain ⟨q, located', -, accepted⟩ :=
    valid.updateFilter_of_filter found ({ · with field, operator, value })
  obtain rfl := Location.inside.inj (Option.some.inj (located.symm.trans located'))
  exact ⟨_, accepted, p.toNode_put _⟩

theorem Valid.expression_of_on (valid : r.Valid) (found : r.node? id = some (.filter f))
    (on : ¬ r.Within Node.isDisabled id) : ∃ pre post, ∀ field operator value, ∃ updated,
      r.updateFilter id ({ · with field, operator, value }) = .ok updated ∧
      updated.expression = pre ++ ({ f with field, operator, value } : Filter).text ++ post := by
  obtain ⟨rfl, frames, rebuilt, updates⟩ := valid.exists_gap_of_filter found
  rw [valid.filter_isOff_iff rebuilt, not_or, not_not, Bool.not_eq_true] at on
  obtain ⟨alive, enabled⟩ := on
  obtain ⟨pre, post, heard⟩ := Frame.expression_around enabled
  refine ⟨pre, post, fun field operator value => ?_⟩
  obtain ⟨updated, accepted, now⟩ := updates field operator value
  have text : (Node.filter { f with field, operator, value }).expression false =
      ({ f with field, operator, value } : Filter).text := by
    simp [Node.expression, alive]
  exact ⟨updated, accepted,
    by rw [expression, now, heard _ (text ▸ Filter.text_ne_empty _), text]⟩

theorem Valid.expression_of_off (valid : r.Valid) (found : r.node? id = some (.filter f))
    (off : r.Within Node.isDisabled id) (field : Field) (operator : Operator) (value : String) :
    ∃ updated, r.updateFilter id ({ · with field, operator, value }) = .ok updated ∧
      updated.expression = r.expression := by
  obtain ⟨rfl, frames, rebuilt, updates⟩ := valid.exists_gap_of_filter found
  obtain ⟨updated, accepted, now⟩ := updates field operator value
  refine ⟨updated, accepted, ?_⟩
  rw [expression, expression, now, ← rebuilt]
  rcases (valid.filter_isOff_iff rebuilt).mp off with dead | shut
  · exact Frame.expression_around_congr _ (by simp [Node.expression, dead])
  · exact Frame.expression_around_of_disabled (Frame.not_allEnabled.mp shut) _ _

theorem Valid.expression_eq_empty_iff (valid : r.Valid) :
    r.expression = "" ↔
      ∀ id f, r.node? id = some (.filter f) → r.Within Node.isDisabled id := by
  constructor
  · intro silent id f found
    by_contra on
    obtain ⟨rfl, frames, rebuilt, -⟩ := valid.exists_gap_of_filter found
    rw [valid.filter_isOff_iff rebuilt, not_or, not_not, Bool.not_eq_true] at on
    rw [expression, ← rebuilt] at silent
    refine Frame.expression_around_ne_empty on.2 ?_ silent
    simpa [Node.expression, on.1] using f.text_ne_empty
  · intro off
    by_contra speaks
    obtain ⟨frames, f, rebuilt, enabled, alive⟩ := Node.exists_heard_filter speaks
    rcases (valid.filter_isOff_iff rebuilt).mp (off f.id f (valid.node?_of_around rebuilt)) with
      dead | shut
    · exact absurd dead (by simp [alive])
    · exact shut enabled

end Rule

namespace Session

theorem exists_protection (s : Session) {id : String} (known : id ∈ s.rule.ids) :
    ∃ state, s.protection id = .ok state ∧
      (state.effectivelyDisabled = true ↔ s.rule.Within Node.isDisabled id) := by
  obtain ⟨p, found⟩ := Rule.exists_path? known
  refine ⟨.ofPath p, ?_, (Rule.within_isDisabled_iff found).symm⟩
  rw [protection, path, found]
  rfl

/-- What a session says of the filters of its rule is what the expression makes of them. Whatever
    condition an enabled filter is given stands in the expression between the same two texts, and one
    that is given to a disabled filter changes nothing. The expression is empty, and the placeholder
    shown, if all filters are disabled and only then. -/
theorem expression_follows_protection (s : Session) (valid : s.rule.Valid) :
    (∀ id f, s.rule.node? id = some (.filter f) → ∃ state, s.protection id = .ok state ∧
      (state.effectivelyDisabled = false → ∃ pre post, ∀ field operator value, ∃ updated,
        s.rule.updateFilter id ({ · with field, operator, value }) = .ok updated ∧
        updated.expression = pre ++ ({ f with field, operator, value } : Filter).text ++ post) ∧
      (state.effectivelyDisabled = true → ∀ field operator value, ∃ updated,
        s.rule.updateFilter id ({ · with field, operator, value }) = .ok updated ∧
        updated.expression = s.rule.expression)) ∧
    (s.expression = "" ↔ ∀ id f, s.rule.node? id = some (.filter f) →
      ∃ state, s.protection id = .ok state ∧ state.effectivelyDisabled = true) ∧
    s.displayExpression =
      if s.expression = "" then s.settings.emptyExpressionMessage else s.expression := by
  refine ⟨fun id f found => ?_, ?_, by simp [displayExpression, String.isEmpty_iff]⟩
  · obtain ⟨state, known, iff⟩ := s.exists_protection (Rule.mem_ids_of_node? found)
    refine ⟨state, known, fun on => ?_, fun off => ?_⟩
    · rw [← Bool.not_eq_true, iff] at on
      exact valid.expression_of_on found on
    · exact valid.expression_of_off found (iff.mp off)
  · rw [expression, valid.expression_eq_empty_iff]
    refine forall_congr' fun id => forall_congr' fun f => imp_congr_right fun found => ?_
    obtain ⟨state, known, iff⟩ := s.exists_protection (Rule.mem_ids_of_node? found)
    simp [known, iff]

def someOff : Rule :=
  ⟨⟨⟨"root", "Rule", .or, false, false, false⟩,
    [.group ⟨"g", "Off", .and, false, true, false⟩ [.filter (.blank "a")], .filter (.blank "b"),
      .group ⟨"h", "On", .and, true, false, false⟩
        [.filter (.blank "c"), .filter ⟨"d", .email, .isEmpty, "", true⟩]]⟩⟩

/-- The filter `c` is heard though its group is locked, and `a` is not though its own switch is on. -/
theorem expression_follows_protection_someOff :
    someOff.Valid ∧
      (∃ pre post, ∀ field operator value, ∃ updated,
        someOff.updateFilter "c" ({ · with field, operator, value }) = .ok updated ∧
        updated.expression =
          pre ++ ({ Filter.blank "c" with field, operator, value } : Filter).text ++ post) ∧
      (∃ updated, someOff.updateFilter "a"
          ({ · with field := .city, operator := .contains, value := "x" }) = .ok updated ∧
        updated.expression = someOff.expression) ∧
      (ofRule someOff .default).expression ≠ "" ∧
      (ofRule (.empty "root" "Rule") .default).displayExpression =
        Settings.default.emptyExpressionMessage := by
  have valid : someOff.Valid := by
    rw [Rule.Valid, Rule.ids_eq_preorder]
    decide
  obtain ⟨filters, silent, -⟩ := expression_follows_protection (ofRule someOff .default) valid
  obtain ⟨-, silent', display⟩ := expression_follows_protection
    (ofRule (.empty "root" "Rule") .default) (Rule.valid_empty "root" "Rule")
  refine ⟨valid, ?_, ?_, ?_, ?_⟩
  · obtain ⟨state, known, on, -⟩ := filters "c" (.blank "c") rfl
    obtain rfl := Except.ok.inj known
    exact on rfl
  · obtain ⟨state, known, -, off⟩ := filters "a" (.blank "a") rfl
    obtain rfl := Except.ok.inj known
    exact off rfl .city .contains "x"
  · intro empty
    obtain ⟨state, known, off⟩ := silent.mp empty "b" (.blank "b") rfl
    obtain rfl := Except.ok.inj known
    cases off
  · have noFilter : ∀ id f, (Rule.empty "root" "Rule").node? id ≠ some (.filter f) := by
      intro id f found
      have visited := (((Rule.valid_empty "root" "Rule").node?_eq_some_iff).mp found).1
      simp [Rule.node, Rule.empty, Group.empty, Group.toNode, Node.preorder, Forest.preorder]
        at visited
    rw [display, if_pos (silent'.mpr fun id f found => absurd found (noFilter id f))]
    rfl

end Session

end NestedRules
