import NestedRules.Proofs.Dump.Companion
import NestedRules.Proofs.Dump.RoundTrip
import NestedRules.Proofs.Json.Nesting
import NestedRules.Proofs.Rule.Standing

namespace NestedRules

open Json

namespace Dump

section

variable {ε α : Type} {reject : Mismatch → ε} {finish : Node → Except ε α} {k : Nat} {r t : Reader α}
  {r' : Reader Value} {cs : List Char} {text : String} {result : α}

theorem Follows.level_eq {s : Schema ε α} (follows : Follows s r r') :
    r.phase.level = r'.phase.level := by
  cases follows with
  | plain twin => cases twin <;> rfl
  | first => rfl
  | kind place within twin => cases twin <;> rfl

theorem Follows.slot_eq {s : Schema ε α} (follows : Follows s r r') : r'.slot = .plain := by
  cases follows <;> rfl

theorem limited_reaches (follows : Follows (schema none reject finish) r r')
    (within : r'.phase.peak ≤ k) :
    ((schema none reject finish).limited k).Reaches r cs t ↔
      (schema none reject finish).Reaches r cs t ∧
        ∃ t', anyValue.Reaches r' cs t' ∧ t'.phase.peak ≤ k := by
  induction cs generalizing r r' with
  | nil => exact ⟨fun reaches => ⟨reaches, r', rfl, within⟩, fun both => both.1⟩
  | cons c cs ih =>
    have room : r.phase.level ≤ k := follows.level_eq ▸ Nat.le_trans r'.phase.level_le_peak within
    obtain ⟨slot, phase⟩ := r'
    obtain rfl : slot = .plain := follows.slot_eq
    simp only [Schema.Reaches, List.foldlM_cons, bind_eq_ok_iff,
      Schema.limited_step (s := schema none reject finish) rfl room]
    -- The two readers have the same brackets open, which tells how far the peak rises by the step.
    constructor
    · rintro ⟨next, ⟨stepped, shallow⟩, rest⟩
      have both := abreast_step follows (c := c)
      rw [stepped] at both
      obtain ⟨next', stepped', follows'⟩ := both.exists_follows
      have within' : next'.phase.peak ≤ k := by
        rw [Schema.peak_turn (Schema.turn_of_step stepped') rfl, ← follows'.level_eq]
        exact Nat.max_le.mpr ⟨within, shallow⟩
      obtain ⟨rest, t', rest', bound⟩ := (ih follows' within').mp rest
      exact ⟨⟨next, stepped, rest⟩, t', ⟨next', stepped', rest'⟩, bound⟩
    · rintro ⟨⟨next, stepped, rest⟩, t', ⟨next', stepped', rest'⟩, bound⟩
      have both := abreast_step follows (c := c)
      rw [stepped, stepped'] at both
      cases both with
      | on follows' =>
        -- The peak never falls, so what is shallow in the end was so on the way.
        have within' : next'.phase.peak ≤ k := by
          obtain ⟨slot', phase'⟩ := next'
          obtain rfl : slot' = .plain := follows'.slot_eq
          exact Nat.le_trans (Schema.peak_reaches rest') bound
        have shallow : next.phase.level ≤ k :=
          follows'.level_eq ▸ Nat.le_trans next'.phase.level_le_peak within'
        exact ⟨next, ⟨stepped, shallow⟩, (ih follows' within').mpr ⟨rest, t', rest', bound⟩⟩

theorem read_limited_iff :
    ((schema none reject finish).limited k).read text = .ok result ↔
      ∃ v n, Value.parse text = .ok v ∧ v.depth ≤ k ∧ ofJson v = .ok n ∧ finish n = .ok result := by
  have limited {t : Reader α} :
      ((schema none reject finish).limited k).Reaches Schema.start text.toList t ↔
        (schema none reject finish).Reaches Schema.start text.toList t ∧
          ∃ t', anyValue.Reaches Schema.start text.toList t' ∧ t'.phase.peak ≤ k :=
    limited_reaches follows_start (Nat.zero_le k)
  constructor
  · intro parsed
    obtain ⟨t, reached, closed⟩ := bind_eq_ok_iff.mp parsed
    obtain ⟨reached, t', reached', bound⟩ := limited.mp reached
    have both := abreast_run reject finish text.toList follows_start
    rw [reached, reached'] at both
    cases both with
    | on follows =>
      obtain ⟨v, n, rfl, read, judged⟩ := follows.exists_done_of_close closed
      exact ⟨v, n, Schema.read_of_reaches reached', bound, read, judged⟩
  · rintro ⟨v, n, parsed, bound, read, judged⟩
    obtain ⟨reached', reached⟩ := reaches_of_ofJson parsed read judged
    exact Schema.read_of_reaches (limited.mpr ⟨reached, _, reached', bound⟩)

end

theorem parseEmbedded_eq_ok_iff {text : String} {r : Rule} :
    parseEmbedded text = .ok r ↔ parse text = .ok r ∧ ∃ v, Value.parse text = .ok v ∧ v.depth ≤ 127 := by
  have limited : parseEmbedded text = .ok r ↔ ∃ v n, Value.parse text = .ok v ∧ v.depth ≤ 127 ∧
      ofJson v = .ok n ∧ (Rule.ofNode n).mapError Unfit.rule = .ok r := read_limited_iff
  simp only [mapError_eq_ok_iff] at limited
  rw [parse_eq_ok_iff_exists]
  refine limited.trans ⟨?_, ?_⟩
  · rintro ⟨v, n, parsed, bound, read, judged⟩
    exact ⟨⟨v, n, parsed, read, judged⟩, v, parsed, bound⟩
  · rintro ⟨⟨v, n, parsed, read, judged⟩, w, same, bound⟩
    obtain rfl := Except.ok.inj (parsed.symm.trans same)
    exact ⟨v, n, parsed, bound, read, judged⟩

end Dump

theorem itemsDepth_toJson_le_iff {cs : Forest} {k : Nat} :
    itemsDepth (Forest.toJson cs) ≤ k ↔ ∀ c ∈ cs, c.toJson.depth ≤ k := by
  induction cs with
  | nil => simp [Forest.toJson, itemsDepth]
  | cons c cs ih => rw [Forest.toJson, itemsDepth, Nat.max_le, ih, List.forall_mem_cons]

namespace Node

theorem depth_toJson_filter (f : Filter) : (Node.filter f).toJson.depth = 1 := by
  simp [toJson, Value.depth, membersDepth]

theorem depth_toJson_group (h : Header) (cs : Forest) :
    (Node.group h cs).toJson.depth = itemsDepth (Forest.toJson cs) + 2 := by
  simp [toJson, Value.depth, membersDepth]

/-- Brackets nest to twice the number of groups that stand one within the other, and to one more where
    the innermost group holds a filter. -/
theorem depth_toJson_le_iff {n : Node} {k : Nat} :
    n.toJson.depth ≤ 2 * k + 1 ↔
      ∀ frames h cs, Frame.around frames (.group h cs) = n → frames.length < k := by
  induction n generalizing k with
  | filter f =>
    rw [depth_toJson_filter]
    refine iff_of_true (Nat.le_add_left 1 _) fun frames h cs rebuilt => ?_
    cases frames <;> cases rebuilt
  | group header children ih =>
    rw [depth_toJson_group]
    constructor
    · intro deep frames h cs rebuilt
      cases frames with
      | nil =>
        rw [List.length_nil]
        omega
      | cons fr inner =>
        rw [Frame.around, Frame.fill, Group.toNode, Node.group.injEq] at rebuilt
        obtain ⟨-, rfl⟩ := rebuilt
        obtain ⟨m, rfl⟩ : ∃ m, k = m + 1 := ⟨k - 1, by omega⟩
        have members := itemsDepth_toJson_le_iff.mp (Nat.le_of_add_le_add_right deep)
        have member : Frame.around inner (.group h cs) ∈
            fr.before ++ Frame.around inner (.group h cs) :: fr.after := by simp
        exact Nat.succ_lt_succ ((ih _ member).mp (members _ member) inner h cs rfl)
    · intro shallow
      have top : 0 < k := shallow [] header children rfl
      obtain ⟨m, rfl⟩ : ∃ m, k = m + 1 := ⟨k - 1, by omega⟩
      have members : itemsDepth (Forest.toJson children) ≤ 2 * m + 1 := by
        refine itemsDepth_toJson_le_iff.mpr fun c member => (ih c member).mpr ?_
        rintro inner h cs rfl
        obtain ⟨before, after, rfl⟩ := List.append_of_mem member
        exact Nat.lt_of_succ_lt_succ (shallow (⟨header, before, after⟩ :: inner) h cs rfl)
      omega

end Node

namespace Rule

variable {r : Rule}

theorem Valid.exists_depth_of_around {frames : List Frame} {n : Node} (valid : r.Valid)
    (rebuilt : Frame.around frames n = r.node) :
    ∃ location, r.locate? n.id = some location ∧ location.node = n ∧
      location.depth = frames.length := by
  obtain ⟨location, located, same⟩ := Option.map_eq_some_iff.mp (valid.node?_of_around rebuilt)
  refine ⟨location, located, same, ?_⟩
  have route := valid.route?_of_around rebuilt
  cases location with
  | root top =>
    obtain ⟨rfl, -⟩ := node_of_locate?_root located
    obtain rfl : r.node = n := same
    have top : r.route? r.node.id = some (.root r.node.bare) := r.node.route?_self
    rw [top, Option.some.injEq, Path.root, Path.mk.injEq] at route
    simpa [Location.depth] using congrArg List.length route.1
  | inside p =>
    obtain rfl : p.node = n := same
    rw [valid.route?_of_around (around_of_locate?_inside located).1, Option.some.injEq,
      Path.mk.injEq] at route
    simpa [Place.frames, Location.depth, Place.depth] using congrArg List.length route.1

theorem Valid.depth_toJson_le_iff {k : Nat} (valid : r.Valid) :
    r.node.toJson.depth ≤ 2 * k + 1 ↔ ∀ id location, r.locate? id = some location →
      location.node.isGroup = true → location.depth < k := by
  rw [Node.depth_toJson_le_iff]
  constructor
  · intro shallow id location located group
    obtain ⟨h, cs, kind⟩ : ∃ h cs, location.node = .group h cs := by
      cases kind : location.node with
      | group h cs => exact ⟨h, cs, rfl⟩
      | filter f => simp [kind, Node.isGroup] at group
    cases location with
    | root n =>
      obtain ⟨rfl, -⟩ := node_of_locate?_root located
      exact shallow [] h cs kind.symm
    | inside p =>
      have rebuilt := (around_of_locate?_inside located).1
      rw [show p.node = .group h cs from kind] at rebuilt
      simpa [Place.frames, Location.depth, Place.depth] using shallow p.frames h cs rebuilt
  · intro shallow frames h cs rebuilt
    obtain ⟨location, located, same, depth⟩ := valid.exists_depth_of_around rebuilt
    rw [← depth]
    exact shallow _ location located (same ▸ rfl)

end Rule

/-- The readers of a rule agree on the texts whose value nests brackets no deeper than 127, and of the
    others the one with a limit reads none. It reads a rule back from its dump just where no group
    stands more than 62 levels below the root; the one without a limit reads every rule back. -/
theorem Dump.parseEmbedded_agrees :
    (∀ text r, parseEmbedded text = .ok r ↔
      parse text = .ok r ∧ ∃ v, Value.parse text = .ok v ∧ v.depth ≤ 127) ∧
    ∀ r : Rule, r.Valid → parse r.compact = .ok r ∧
      (parseEmbedded r.compact = .ok r ↔ ∀ id location, r.locate? id = some location →
        location.node.isGroup = true → location.depth ≤ 62) := by
  refine ⟨fun text r => parseEmbedded_eq_ok_iff, fun r valid => ?_⟩
  have back : parse r.compact = .ok r := parse_write valid Layout.proper_compact
  have value : Value.parse r.compact = .ok r.node.toJson :=
    Value.parse_write r.node.numberFree_toJson Layout.proper_compact
  refine ⟨back, ?_⟩
  rw [parseEmbedded_eq_ok_iff, and_iff_right back, value]
  simp only [Except.ok.injEq, exists_eq_left', ← Nat.lt_succ_iff (n := 62)]
  exact valid.depth_toJson_le_iff (k := 63)

def Group.nested : Nat → Group
  | 0 => .empty "" ""
  | n + 1 => (Group.empty (String.ofList (List.replicate (n + 1) 'g')) "").push (nested n)

namespace Group

theorem ids_nested_succ (n : Nat) :
    (nested (n + 1)).toNode.ids =
      String.ofList (List.replicate (n + 1) 'g') :: (nested n).toNode.ids := by
  rw [Node.ids_eq]
  simp [nested, push, empty, toNode, Node.id, Node.children]

theorem length_of_mem_ids_nested {n : Nat} {id : String} (member : id ∈ (nested n).toNode.ids) :
    id.toList.length ≤ n := by
  induction n with
  | zero =>
    have single : (nested 0).toNode.ids = [""] := Node.ids_eq _
    rw [single, List.mem_singleton] at member
    simp [member]
  | succ n ih =>
    rw [ids_nested_succ, List.mem_cons] at member
    rcases member with rfl | below
    · simp
    · exact Nat.le_succ_of_le (ih below)

theorem valid_nested (n : Nat) : (⟨nested n⟩ : Rule).Valid := by
  induction n with
  | zero => exact Rule.valid_empty "" ""
  | succ n ih =>
    rw [Rule.Valid, Rule.ids, Rule.node, ids_nested_succ, List.nodup_cons]
    refine ⟨fun member => ?_, ih⟩
    have short := length_of_mem_ids_nested member
    rw [String.toList_ofList, List.length_replicate] at short
    exact Nat.not_succ_le_self n short

theorem depth_toJson_nested (n : Nat) : (nested n).toNode.toJson.depth = 2 * n + 2 := by
  induction n with
  | zero => exact Node.depth_toJson_group ..
  | succ n ih =>
    have top : (nested (n + 1)).toNode.toJson.depth =
        itemsDepth (Forest.toJson [(nested n).toNode]) + 2 := Node.depth_toJson_group ..
    rw [top, Forest.toJson, Forest.toJson, itemsDepth, itemsDepth, ih]
    omega

end Group

theorem Dump.parseEmbedded_agrees_nested :
    parseEmbedded (⟨.nested 62⟩ : Rule).compact = .ok ⟨.nested 62⟩ ∧
      parse (⟨.nested 63⟩ : Rule).compact = .ok ⟨.nested 63⟩ ∧
      parseEmbedded (⟨.nested 63⟩ : Rule).compact ≠ .ok ⟨.nested 63⟩ := by
  obtain ⟨-, dumps⟩ := parseEmbedded_agrees
  have valid := Group.valid_nested
  have depth := Group.depth_toJson_nested
  have shallow : ∀ n, (∀ id location, (⟨.nested n⟩ : Rule).locate? id = some location →
      location.node.isGroup = true → location.depth ≤ 62) ↔ n ≤ 62 := by
    intro n
    have whole := (valid n).depth_toJson_le_iff (k := 63)
    rw [Rule.node, depth n] at whole
    simp only [← Nat.lt_succ_iff (n := 62)]
    rw [← whole]
    omega
  obtain ⟨-, reads⟩ := dumps ⟨.nested 62⟩ (valid 62)
  obtain ⟨back, tooDeep⟩ := dumps ⟨.nested 63⟩ (valid 63)
  exact ⟨reads.mpr ((shallow 62).mpr (by decide)), back,
    fun read => absurd ((shallow 63).mp (tooDeep.mp read)) (by decide)⟩

end NestedRules
