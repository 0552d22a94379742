import Splice.Proofs.Constants
import Splice.Proofs.Overrides
import Splice.Proofs.ShapeFilter

/-!
# Independent passes

Two passes that put in constants do not see each other's work if no key of one is a key of the other
or the beginning of one: in an expression that is a key of one, the other finds nothing. So they can
be run in either order, or as one pass with the keys of both, unless this pass looks at an expression
that the filter hides from the pass whose key it is: the keys of one pass add their shapes to those of
the other.
-/
namespace Splice

/-! ## Shapes of names -/

/-- The shape of an expression that is printed as the dotted name. -/
def nameShape (t : List Char) : Shape := if '.' ∈ t then .member else .identifier

/-- The table looks at the shapes that its keys have as names. -/
def Table.LooksAtNames (t : Table) : Prop :=
  ∀ text v, t.lookup text = some v → t.mayMatch (nameShape text.toList) = true

theorem Node.shape_eq_nameShape {n : Node} (wellFormed : n.WellFormed)
    (dotted : Dotted (n.written {})) (name : n.shape = .identifier ∨ n.shape = .member) :
    n.shape = nameShape (n.written {}) := by
  obtain ⟨without, within⟩ := dot_iff_of_shape wellFormed dotted
  unfold nameShape
  rcases name with identifier | member
  · rw [if_neg (without identifier), identifier]
  · rw [if_pos (within member), member]

namespace Stats

theorem add_add_add_comm (a b c d : Stats) : a + b + (c + d) = a + c + (b + d) := by
  change add (add a b) (add c d) = add (add a c) (add b d)
  simp only [add, Nat.add_add_add_comm]

end Stats

namespace Pass

variable {p q u : Pass}

/-! ## Passes that stay apart -/

/-- Both passes put in constants, and no key of one is a key of the other or the beginning of one. -/
structure Independent (p q : Pass) : Prop where
  first : p.PutsConstants
  second : q.PutsConstants
  apart : ∀ a v b w, p.table.lookup a = some v → q.table.lookup b = some w →
    ¬ Opens a.toList b.toList ∧ ¬ Opens b.toList a.toList

theorem Independent.symm (independent : p.Independent q) : q.Independent p where
  first := independent.second
  second := independent.first
  apart a v b w first second := (independent.apart b w a v second first).symm

/-- A pass finds nothing in an expression that is printed as a dotted name, if no key is the
beginning of the name. -/
theorem walk_of_apart {n : Node} (wellFormed : n.WellFormed)
    (expression : n.form.isExpression = true) {spot : Spot} (plain : spot.verbatim = false)
    (dotted : Dotted (n.written spot))
    (apart : ∀ text v, p.table.lookup text = some v → ¬ Opens text.toList (n.written spot)) :
    p.walk n = (n, {}) := by
  induction n using Node.induction_on generalizing spot with
  | step form place spans cs ih =>
    have missed : p.outcomeAt (.mk form place spans cs) = .noMatch := by
      cases found : p.table.lookup (Node.mk form place spans cs).render with
      | none => exact outcomeAt_of_lookup found
      | some v =>
        have same := Node.render_of_dotted wellFormed expression plain dotted
        exact absurd (same ▸ Opens.refl _) (apart _ v found)
    have names := Node.parts_of_dotted wellFormed expression plain dotted
    have rest : p.walkAll cs = (cs, {}) := by
      refine walkAll_of_stay fun c inside => ?_
      have part := wellFormed.parts c inside
      rcases names c inside with absent | ⟨inner, spot', plain', name, opens⟩
      · exact walk_absent part absent
      · refine ih c inside part inner plain' name fun text v found first => ?_
        exact apart text v found (first.trans opens)
    have same : p.afterParts form cs = form := afterParts_of_isExpression expression cs
    rw [walk_of_missed missed, rest, same]

theorem outcomeAt_of_found {n : Node} {v : Value} (value : n.place = .value)
    (may : p.table.mayMatch n.shape = true) (found : p.table.lookup n.render = some v) :
    p.outcomeAt n = p.outcomeOf n v := by
  simp [outcomeAt, outcome, value, may, found]

/-- Where a pass does something, it found a key of a shape it looks at. -/
theorem found_of_outcomeAt {n : Node} (matched : p.outcomeAt n ≠ .noMatch) :
    n.place = .value ∧ p.table.mayMatch n.shape = true ∧ ∃ v, p.table.lookup n.render = some v := by
  cases place : n.place with
  | part => simp [outcomeAt, place] at matched
  | value =>
    refine ⟨rfl, ?_⟩
    simp only [outcomeAt, place, outcome] at matched
    split at matched
    next may =>
      split at matched
      next v found => exact ⟨may, v, found⟩
      · exact absurd rfl matched
    · exact absurd rfl matched

/-- Where two passes do the same, they leave the same behind. -/
theorem walk_eq_of_outcomeAt {n : Node} (same : q.outcomeAt n = p.outcomeAt n)
    (matched : p.outcomeAt n ≠ .noMatch) : p.walk n = q.walk n := by
  obtain ⟨form, place, spans, cs⟩ := n
  rw [walk, walk, same]
  cases outcome : p.outcomeAt (.mk form place spans cs) with
  | noMatch => exact absurd outcome matched
  | _ => rfl

/-- In an expression that one pass matches, the other finds nothing. -/
theorem Independent.walk_of_matched (independent : p.Independent q) {n : Node}
    (wellFormed : n.WellFormed) (matched : q.outcomeAt n ≠ .noMatch) : p.walk n = (n, {}) := by
  obtain ⟨value, -, v, found⟩ := found_of_outcomeAt matched
  have dotted := independent.second.dotted_of_found found
  refine walk_of_apart wellFormed (wellFormed.isExpression value) rfl dotted fun text w other => ?_
  have opens := (independent.apart text w _ v other found).1
  rwa [Node.render_eq, String.toList_ofList] at opens

/-- Where the first pass does something, the second one finds nothing after it. -/
theorem Independent.walk_walk_of_first (independent : p.Independent q) {n : Node}
    (wellFormed : n.WellFormed) (matched : p.outcomeAt n ≠ .noMatch) :
    q.walk (p.walk n).1 = ((p.walk n).1, {}) := by
  cases independent.first.fate n with
  | missed outcome => exact absurd outcome matched
  | kept _ outcome =>
    rw [walk_of_kept outcome]
    exact independent.symm.walk_of_matched wellFormed matched
  | put _ e constant outcome =>
    rw [walk_of_put outcome]
    exact independent.second.walk_constant constant

/-! ## What is seen -/

/-- The expression is hidden from neither pass. -/
def Seen (p q : Pass) (n : Node) : Prop := p.hides n = false ∧ q.hides n = false

/-- The outermost matches of a pass are hidden from neither of two others. -/
def SeenBy (u p q : Pass) (n : Node) : Prop :=
  ∀ i ∈ u.hits n, ∀ e, n.at? i = some e → Seen p q e

/-- A key that is not hidden has a shape that is looked at. -/
theorem mayMatch_of_found {n : Node} {v : Value} (seen : p.hides n = false)
    (value : n.place = .value) (found : p.table.lookup n.render = some v) :
    p.table.mayMatch n.shape = true := by
  simpa [hides, value, found] using seen

/-- A pass that matches an expression does something there. -/
theorem isMatch_iff_outcomeAt {n : Node} (u : Pass) :
    u.isMatch n = true ↔ u.outcomeAt n ≠ .noMatch := by
  constructor
  · intro hit
    obtain ⟨v, -, same⟩ := u.outcomeAt_of_match hit
    rw [same, Pass.outcomeOf]
    split
    · intro other
      cases other
    · split <;> (intro other; cases other)
  · intro matched
    by_contra miss
    exact matched (u.outcomeAt_of_not_match (by simpa using miss))

/-- A pass does nothing with a key that is hidden from it. -/
theorem missed_of_hides {n : Node} (hidden : p.hides n = true) :
    p.outcomeAt n = .noMatch ∧ ∃ v, p.table.lookup n.render = some v := by
  unfold hides at hidden
  split at hidden
  next value =>
    obtain ⟨missed, found⟩ := (Bool.and_eq_true ..).mp hidden
    have shape : p.table.mayMatch n.shape = false := by simpa using missed
    exact ⟨by simp [outcomeAt, outcome, value, shape], Option.isSome_iff_exists.mp found⟩
  · cases hidden

/-- Of two independent passes neither does anything with a key that is hidden from one of them. -/
theorem Independent.missed_of_hidden (independent : p.Independent q) {n : Node}
    (hidden : p.hides n = true ∨ q.hides n = true) :
    p.outcomeAt n = .noMatch ∧ q.outcomeAt n = .noMatch := by
  have other {p q : Pass} (independent : p.Independent q) (hidden : p.hides n = true) :
      p.outcomeAt n = .noMatch ∧ q.outcomeAt n = .noMatch := by
    obtain ⟨missed, v, found⟩ := missed_of_hides hidden
    refine ⟨missed, outcomeAt_of_lookup (Option.eq_none_iff_forall_ne_some.mpr fun w found' => ?_)⟩
    exact (independent.apart _ v _ w found found').1 (Opens.refl _)
  rcases hidden with first | second
  · exact other independent first
  · exact (other independent.symm second).symm

namespace SeenBy

variable {n : Node}

theorem symm (seen : u.SeenBy p q n) : u.SeenBy q p n := fun i hit e found => (seen i hit e found).symm

theorem root (seen : u.SeenBy p q n) (matched : u.outcomeAt n ≠ .noMatch) : Seen p q n := by
  have hit := (isMatch_iff_outcomeAt u).mpr matched
  obtain ⟨form, place, spans, cs⟩ := n
  exact seen [] (by simp [hits, hit]) _ rfl

theorem part {form : Form} {place : Place} {spans : Spans} {cs : List Node} {c : Node}
    (seen : u.SeenBy p q (.mk form place spans cs))
    (missed : u.outcomeAt (.mk form place spans cs) = .noMatch) (inside : c ∈ cs) :
    u.SeenBy p q c := by
  have miss : u.isMatch (.mk form place spans cs) = false := by
    rw [← Bool.not_eq_true, isMatch_iff_outcomeAt, not_not]
    exact missed
  obtain ⟨i, child⟩ := List.mem_iff_getElem?.mp inside
  have child' : (Node.mk form place spans cs).children[i]? = some c := child
  intro r hit e found
  refine seen (i :: r) ((u.cons_mem_hits miss child').mpr hit) e ?_
  rwa [Node.at?_cons, child']

end SeenBy

/-- Names are hidden from no pass whose keys are looked at as names. -/
theorem not_hides_of_names (dotted : ∀ text v, p.table.lookup text = some v → Dotted text.toList)
    (names : p.table.LooksAtNames) {n : Node} (wellFormed : n.WellFormed)
    (name : n.shape = .identifier ∨ n.shape = .member) : p.hides n = false := by
  cases place : n.place with
  | part => simp [hides, place]
  | value =>
    cases found : p.table.lookup n.render with
    | none => simp [hides, place, found]
    | some v =>
      have key := dotted _ v found
      have may := names _ v found
      rw [Node.render_eq, String.toList_ofList] at key may
      rw [← Node.shape_eq_nameShape wellFormed key name] at may
      simp [hides, place, may]

/-! ## Both passes as one -/

/-- A pass with the keys of two others, that looks at the shapes they look at. -/
structure Joins (u p q : Pass) : Prop where
  lookup : ∀ text, u.table.lookup text = (p.table.lookup text).or (q.table.lookup text)
  mayMatch : ∀ s, u.table.mayMatch s = (p.table.mayMatch s || q.table.mayMatch s)
  outcomeOf : ∀ n v, p.outcomeOf n v = u.outcomeOf n v ∧ q.outcomeOf n v = u.outcomeOf n v

namespace Joins

variable (joins : u.Joins p q) (independent : p.Independent q)

include joins independent

theorem symm : u.Joins q p where
  lookup text := by
    rw [joins.lookup]
    cases first : p.table.lookup text with
    | none => simp
    | some v =>
      cases second : q.table.lookup text with
      | none => simp
      | some w => exact absurd (Opens.refl _) (independent.apart text v text w first second).1
  mayMatch s := by rw [joins.mayMatch, Bool.or_comm]
  outcomeOf n v := (joins.outcomeOf n v).symm

omit independent in
/-- The joint pass does what the first one does. -/
theorem outcomeAt_of_first {n : Node} (matched : p.outcomeAt n ≠ .noMatch) :
    u.outcomeAt n = p.outcomeAt n := by
  obtain ⟨value, may, v, found⟩ := found_of_outcomeAt matched
  rw [outcomeAt_of_found value may found, outcomeAt_of_found value (by simp [joins.mayMatch, may])
    (by rw [joins.lookup, found, Option.some_or]), (joins.outcomeOf n v).1]

omit independent in
/-- What the joint pass does, one of the two does, unless it is hidden from one of them. -/
theorem outcomeAt_cases {n : Node} (seen : Seen p q n) (matched : u.outcomeAt n ≠ .noMatch) :
    p.outcomeAt n = u.outcomeAt n ∨ q.outcomeAt n = u.outcomeAt n := by
  obtain ⟨value, may, v, found⟩ := found_of_outcomeAt matched
  have whole := outcomeAt_of_found value may found
  rw [joins.lookup, Option.or_eq_some_iff] at found
  rcases found with here | ⟨-, there⟩
  · left
    rw [outcomeAt_of_found value (mayMatch_of_found seen.1 value here) here, whole,
      (joins.outcomeOf n v).1]
  · right
    rw [outcomeAt_of_found value (mayMatch_of_found seen.2 value there) there, whole,
      (joins.outcomeOf n v).2]

/-- Where the first pass does nothing, the second one does after it what the joint pass does; and
where this is something, the first pass leaves the expression as it is. -/
theorem outcomeAt_walk {n : Node} (wellFormed : n.WellFormed)
    (seen : u.outcomeAt n ≠ .noMatch → Seen p q n) (missed : p.outcomeAt n = .noMatch) :
    q.outcomeAt (p.walk n).1 = u.outcomeAt n ∧
      (u.outcomeAt n ≠ .noMatch → p.walk n = (n, {})) := by
  by_cases none : u.outcomeAt n = .noMatch
  · refine ⟨?_, fun matched => absurd none matched⟩
    rw [none]
    by_contra matched
    rw [independent.first.walk_of_matched independent.second wellFormed matched] at matched
    exact matched (((joins.symm independent).outcomeAt_of_first matched).symm.trans none)
  · rcases joins.outcomeAt_cases (seen none) none with first | second
    · exact absurd (first.symm.trans missed) none
    · have stays := independent.walk_of_matched wellFormed (second ▸ none)
      exact ⟨by rw [stays, second], fun _ => stays⟩

/-- A value is replaced by the joint pass if one of the two replaces it. -/
theorem isReplaced_walk {n : Node} (wellFormed : n.WellFormed)
    (seen : u.outcomeAt n ≠ .noMatch → Seen p q n) :
    (u.outcomeAt n).isReplaced =
      ((p.outcomeAt n).isReplaced || (q.outcomeAt (p.walk n).1).isReplaced) := by
  by_cases missed : p.outcomeAt n = .noMatch
  · rw [(joins.outcomeAt_walk independent wellFormed seen missed).1, missed]
    rfl
  · have stays : (q.outcomeAt (p.walk n).1).isReplaced = false :=
      not_replaced_of_walk (by rw [independent.walk_walk_of_first wellFormed missed])
    rw [joins.outcomeAt_of_first missed, stays, Bool.or_false]

/-- A shorthand property gets a key in the joint pass if it gets one in one of the two. -/
theorem afterParts_walkAll (form : Form) {cs : List Node} (parts : ∀ c ∈ cs, c.WellFormed)
    (seen : ∀ c ∈ cs, u.outcomeAt c ≠ .noMatch → Seen p q c) :
    q.afterParts (p.afterParts form cs) (p.walkAll cs).1 = u.afterParts form cs := by
  cases form with
  | property t =>
    have replaced : (cs.drop 1).any (fun v => (u.outcomeAt v).isReplaced) =
        ((cs.drop 1).any (fun v => (p.outcomeAt v).isReplaced) ||
          ((p.walkAll cs).1.drop 1).any fun v => (q.outcomeAt v).isReplaced) := by
      rw [walkAll_fst, ← List.map_drop, List.any_map, Bool.eq_iff_iff, Bool.or_eq_true]
      simp only [List.any_eq_true, Function.comp_apply, ← exists_or, ← and_or_left]
      refine exists_congr fun v => and_congr_right fun inside => ?_
      have member := List.mem_of_mem_drop inside
      rw [joins.isReplaced_walk independent (parts v member) (seen v member), Bool.or_eq_true]
    simp only [afterParts, replaced]
    cases shorthand : t.shorthand <;>
      cases (cs.drop 1).any (fun v => (p.outcomeAt v).isReplaced) <;> simp [shorthand]
  | _ => rfl

omit joins independent in
theorem walkAll_eq {cs : List Node}
    (each : ∀ c ∈ cs,
      u.walk c = ((q.walk (p.walk c).1).1, (p.walk c).2 + (q.walk (p.walk c).1).2)) :
    u.walkAll cs = ((q.walkAll (p.walkAll cs).1).1,
      (p.walkAll cs).2 + (q.walkAll (p.walkAll cs).1).2) := by
  induction cs with
  | nil => rfl
  | cons c cs ih =>
    simp only [walkAll]
    rw [each c List.mem_cons_self, ih fun d inside => each d (List.mem_cons_of_mem c inside),
      Stats.add_add_add_comm]

/-- The joint pass does in one walk what the two do one after the other. -/
theorem walk_eq {n : Node} (wellFormed : n.WellFormed) (seen : u.SeenBy p q n) :
    u.walk n = ((q.walk (p.walk n).1).1, (p.walk n).2 + (q.walk (p.walk n).1).2) := by
  induction n using Node.induction_on with
  | step form place spans cs ih =>
    have parts : ∀ c ∈ cs, c.WellFormed := wellFormed.parts
    by_cases missed : p.outcomeAt (.mk form place spans cs) = .noMatch
    · obtain ⟨second, stays⟩ := joins.outcomeAt_walk independent wellFormed seen.root missed
      by_cases none : u.outcomeAt (.mk form place spans cs) = .noMatch
      · have below : ∀ c ∈ cs, u.SeenBy p q c := fun c inside => seen.part none inside
        have rest := walkAll_eq fun c inside => ih c inside (parts c inside) (below c inside)
        rw [none] at second
        rw [walk_of_missed missed] at second ⊢
        rw [walk_of_missed none, walk_of_missed second, rest,
          joins.afterParts_walkAll independent form parts fun c inside => (below c inside).root]
      · rw [stays none] at second ⊢
        rw [walk_eq_of_outcomeAt second none, Stats.zero_add]
    · have same := joins.outcomeAt_of_first missed
      rw [walk_eq_of_outcomeAt same.symm (same ▸ missed),
        independent.walk_walk_of_first wellFormed missed, Stats.add_zero]

end Joins

/-- Two passes can be run in either order, or as one: the tree is the same, and so are the sums of the
counters. -/
structure Fuse (p q u : Pass) (n : Node) : Prop where
  tree : (q.run (p.run n).1).1 = (u.run n).1
  swapped : (p.run (q.run n).1).1 = (u.run n).1
  stats : (p.run n).2 + (q.run (p.run n).1).2 = (u.run n).2
  swappedStats : (q.run n).2 + (p.run (q.run n).1).2 = (u.run n).2

/-- Independent passes fuse unless something that the joint pass matches is hidden from one of
them. -/
theorem Joins.fuse (joins : u.Joins p q) (independent : p.Independent q) {n : Node}
    (wellFormed : n.WellFormed) (seen : u.SeenBy p q n) : p.Fuse q u n := by
  have first := joins.walk_eq independent wellFormed seen
  have second := (joins.symm independent).walk_eq independent.symm wellFormed seen.symm
  constructor <;> simp only [run_eq_walk]
  · exact (Prod.ext_iff.mp first).1.symm
  · exact (Prod.ext_iff.mp second).1.symm
  · exact (Prod.ext_iff.mp first).2.symm
  · exact (Prod.ext_iff.mp second).2.symm

end Pass

/-! ## Configurations of both -/

namespace Config

/-- The configuration with the given entries; of those with one key the last one counts. -/
def ofEntries (es : List (String × Value)) : Config := es.foldl (fun c e => c.insert e.1 e.2) {}

theorem get?_foldl (c : Config) (es : List (String × Value)) (key : String) :
    (es.foldl (fun c e => c.insert e.1 e.2) c).replace.get? key =
      ((ofEntries es).replace.get? key).or (c.replace.get? key) := by
  unfold ofEntries
  induction es using List.reverseRecOn with
  | nil => rfl
  | append_singleton es e ih =>
    rw [List.foldl_concat, List.foldl_concat, Config.insert, Config.insert, Entries.get?_insert,
      Entries.get?_insert, ih]
    split <;> rfl

theorem get?_append (as bs : List (String × Value)) (key : String) :
    (ofEntries (as ++ bs)).replace.get? key =
      ((ofEntries bs).replace.get? key).or ((ofEntries as).replace.get? key) := by
  rw [ofEntries, List.foldl_append]
  exact get?_foldl (ofEntries as) bs key

/-- What is found for a text is determined by its spellings and their values. -/
theorem keyFor_congr {c d : Config} {text : String}
    (spells : ∀ key, c.Spells text key ↔ d.Spells text key)
    (values : ∀ key, c.Spells text key → c.replace.get? key = d.replace.get? key) :
    c.keyFor text = d.keyFor text := by
  have same : ∀ {c d : Config}, (∀ key, c.Spells text key ↔ d.Spells text key) →
      (∀ key, c.Spells text key → c.replace.get? key = d.replace.get? key) →
      ∀ {found}, c.keyFor text = some found → d.keyFor text = some found := by
    intro c d spells values found here
    obtain ⟨v, shape⟩ := found
    obtain ⟨key, value, form, least⟩ := keyFor_eq_some here
    obtain ⟨⟨w, shape'⟩, there⟩ := exists_keyFor ((spells key).mp least.1)
    obtain ⟨key', value', form', least'⟩ := keyFor_eq_some there
    have all : {k | c.Spells text k} = {k | d.Spells text k} := Set.ext spells
    obtain rfl : key = key' := least.unique (all ▸ least')
    rw [values key least.1, value'] at value
    rw [form] at form'
    grind
  cases here : c.keyFor text with
  | some found => exact (same spells values here).symm
  | none =>
    cases there : d.keyFor text with
    | none => rfl
    | some found =>
      have back := same (fun key => (spells key).symm)
        (fun key spelled => (values key ((spells key).mpr spelled)).symm) there
      rw [here] at back
      cases back

variable {as bs : List (String × Value)} {text : String}

theorem spells_append (key : String) :
    (ofEntries (as ++ bs)).Spells text key ↔
      (ofEntries as).Spells text key ∨ (ofEntries bs).Spells text key := by
  simp only [Spells, Entries.contains, get?_append, Option.isSome_or, Bool.or_eq_true]
  tauto

theorem not_spells_of_keyFor {c : Config} (none : c.keyFor text = none) (key : String) :
    ¬ c.Spells text key := by
  intro spelled
  obtain ⟨found, some⟩ := exists_keyFor spelled
  rw [none] at some
  cases some

/-- A text that only one of two configurations spells is found in both together as it is there. -/
theorem keyFor_append
    (apart : (ofEntries as).keyFor text = none ∨ (ofEntries bs).keyFor text = none) :
    (ofEntries (as ++ bs)).keyFor text =
      ((ofEntries as).keyFor text).or ((ofEntries bs).keyFor text) := by
  rcases apart with none | none
  · rw [none, Option.none_or]
    refine keyFor_congr (fun key => ?_) fun key spelled => ?_
    · rw [spells_append, or_iff_right (not_spells_of_keyFor none key)]
    · have there := (spells_append key).mp spelled
      rw [or_iff_right (not_spells_of_keyFor none key)] at there
      obtain ⟨v, value⟩ := Option.isSome_iff_exists.mp there.1
      rw [get?_append, value, Option.some_or]
  · rw [none, Option.or_none]
    refine keyFor_congr (fun key => ?_) fun key spelled => ?_
    · rw [spells_append, or_iff_left (not_spells_of_keyFor none key)]
    · have absent : (ofEntries bs).replace.get? key = Option.none := by
        refine Option.not_isSome_iff_eq_none.mp fun contained => ?_
        exact not_spells_of_keyFor none key ⟨contained, spelled.2⟩
      rw [get?_append, absent, Option.none_or]

end Config

/-- The pass of a configuration. -/
def Config.pass (c : Config) (environment : Environment) (language : Language) : Pass :=
  ⟨Table.ofConfig c, environment, language⟩

/-- The pass of both configurations has the keys and the shapes of both, if no text is a key of
both. -/
theorem Pass.Independent.joins {as bs : List (String × Value)} {environment : Environment}
    {language : Language}
    (independent : ((Config.ofEntries as).pass environment language).Independent
      ((Config.ofEntries bs).pass environment language)) :
    ((Config.ofEntries (as ++ bs)).pass environment language).Joins
      ((Config.ofEntries as).pass environment language)
      ((Config.ofEntries bs).pass environment language) := by
  have apart : ∀ text, (Config.ofEntries as).keyFor text = none ∨
      (Config.ofEntries bs).keyFor text = none := by
    intro text
    cases first : (Config.ofEntries as).keyFor text with
    | none => exact Or.inl rfl
    | some v =>
      cases second : (Config.ofEntries bs).keyFor text with
      | none => exact Or.inr rfl
      | some w =>
        have different := (independent.apart text v.1 text w.1
          (by rw [Config.pass, Table.lookup_ofConfig, first, Option.map_some])
          (by rw [Config.pass, Table.lookup_ofConfig, second, Option.map_some])).1
        exact absurd (Opens.refl _) different
  have found := fun text => Config.keyFor_append (apart text)
  refine ⟨fun text => ?_, fun s => ?_, fun n v => ⟨rfl, rfl⟩⟩
  · simp only [Config.pass, Table.lookup_ofConfig, found]
    cases (Config.ofEntries as).keyFor text <;> rfl
  · rw [Bool.eq_iff_iff, Bool.or_eq_true]
    simp only [Config.pass, Table.mayMatch_ofConfig, found, ← exists_or]
    refine exists_congr fun text => exists_congr fun v => ?_
    rcases apart text with none | none
    · simp [none]
    · simp [none]

end Splice
