/-
This file says what the sorting of a const list answers, whatever the list. It
refuses a name that is declared twice, then a name that is declared nowhere,
then a circle of names. Of the first two it reports the first in the source, of
a circle all declarations that lead into one. Any other list comes out in an
order in which no declaration names itself or one behind it, and of all these
orders it is the least.
-/

import BehaviourScript.Proofs.Consts.Order
import Mathlib.Data.Fintype.Order
import Mathlib.Data.List.Lex
import Mathlib.Data.Set.Finite.List
import Mathlib.Order.Bounds.Basic

namespace BehaviourScript

/-- One declaration of a list names another, or itself. -/
def Uses (decls : List ConstDecl) (first second : ConstDecl) : Prop :=
  first ∈ decls ∧ second ∈ decls ∧ first.Names second.name

/-- A declaration that names itself in the end. -/
def OnCircle (decls : List ConstDecl) (decl : ConstDecl) : Prop :=
  Relation.TransGen (Uses decls) decl decl

/-- A declaration from which a circle can be reached. -/
def MeetsCircle (decls : List ConstDecl) (decl : ConstDecl) : Prop :=
  ∃ other, Relation.ReflTransGen (Uses decls) decl other ∧ OnCircle decls other

/-- A name that a list or the scope around it declares. -/
def Declared (decls : List ConstDecl) (outer : Option Scope) (name : String) : Prop :=
  name ∈ decls.map ConstDecl.name ∨ outer.any (·.contains name) = true

/-- The declarations at some places of a list, each with its place. -/
def readThrough (decls : List ConstDecl) (order : List Nat) : List Placed :=
  order.filterMap fun index => decls[index]?.map (·, index)

/-- An order of all places in which no declaration names itself or one behind it. -/
structure Orders (decls : List ConstDecl) (order : List Nat) : Prop where
  perm : order.Perm (List.range decls.length)
  inOrder : InOrder ((readThrough decls order).map Prod.fst)

open Classical in
/-- What the sorting of a list is to answer. -/
inductive SortsTo (decls : List ConstDecl) (outer : Option Scope) :
    Except SemanticError (List Placed) → Prop
  /-- The first declaration whose name an earlier one has. -/
  | repeated {before after : List ConstDecl} {decl : ConstDecl}
      (split : decls = before ++ decl :: after) (distinct : (before.map ConstDecl.name).Nodup)
      (old : decl.name ∈ before.map ConstDecl.name) :
      SortsTo decls outer (.error (.duplicateConst decl.name decl.span.start))
  /-- The first reference to a name that is not declared. -/
  | undefined {before after : List (String × Span)} {reference : String × Span}
      (distinct : (decls.map ConstDecl.name).Nodup)
      (split : decls.flatMap (·.value.references) = before ++ reference :: after)
      (declared : ∀ other ∈ before, Declared decls outer other.1)
      (missing : ¬Declared decls outer reference.1) :
      SortsTo decls outer (.error (.undefinedConst reference.1 reference.2.start))
  /-- Every declaration that meets a circle. -/
  | cyclic {decl : ConstDecl} (distinct : (decls.map ConstDecl.name).Nodup)
      (declared : ∀ reference ∈ decls.flatMap (·.value.references),
        Declared decls outer reference.1)
      (circle : OnCircle decls decl) :
      SortsTo decls outer
        (.error (.cyclicConst ((decls.filter fun decl => MeetsCircle decls decl).map ConstDecl.name)))
  /-- The list read through the least order. -/
  | ordered {order : List Nat} (distinct : (decls.map ConstDecl.name).Nodup)
      (declared : ∀ reference ∈ decls.flatMap (·.value.references),
        Declared decls outer reference.1)
      (straight : ∀ decl, ¬OnCircle decls decl)
      (least : IsLeast {order | Orders decls order} order) :
      SortsTo decls outer (.ok (readThrough decls order))

/-! ### Names that are repeated or not declared -/

namespace ConstOrder

theorem firstRepeated?_eq_some {seen : List String} {decls : List ConstDecl} {decl : ConstDecl} :
    firstRepeated? seen decls = some decl ↔
      ∃ before after, decls = before ++ decl :: after ∧
        ((before.map ConstDecl.name).Nodup ∧ ∀ other ∈ before, other.name ∉ seen) ∧
        (decl.name ∈ seen ∨ decl.name ∈ before.map ConstDecl.name) := by
  induction decls generalizing seen with
  | nil =>
    refine iff_of_false (fun found => by cases found) ?_
    rintro ⟨before, after, split, _⟩
    exact absurd split.symm (List.append_ne_nil_of_right_ne_nil _ (List.cons_ne_nil _ _))
  | cons head rest inductionHypothesis =>
    rw [firstRepeated?]
    by_cases repeated : head.name ∈ seen
    · rw [if_pos (List.contains_iff_mem.mpr repeated), Option.some.injEq]
      constructor
      · rintro rfl
        exact ⟨[], rest, rfl, ⟨.nil, fun _ inside => absurd inside List.not_mem_nil⟩, .inl repeated⟩
      · rintro ⟨_ | ⟨first, before⟩, after, split, ⟨_, fresh⟩, _⟩
        · exact (List.cons.inj split).1
        · rw [← (List.cons.inj split).1] at fresh
          exact absurd repeated (fresh head List.mem_cons_self)
    · rw [if_neg (fun found => repeated (List.contains_iff_mem.mp found)), inductionHypothesis]
      constructor
      · rintro ⟨before, after, rfl, ⟨distinct, fresh⟩, old⟩
        refine ⟨head :: before, after, rfl, ⟨?_, ?_⟩, ?_⟩
        · refine List.nodup_cons.mpr ⟨fun member => ?_, distinct⟩
          obtain ⟨other, inBefore, same⟩ := List.mem_map.mp member
          exact fresh other inBefore (same ▸ List.mem_cons_self)
        · refine List.forall_mem_cons.mpr ⟨repeated, fun other inBefore older => ?_⟩
          exact fresh other inBefore (List.mem_cons_of_mem _ older)
        · simpa only [List.map_cons, List.mem_cons, or_assoc, or_left_comm] using old
      · rintro ⟨_ | ⟨first, before⟩, after, split, ⟨distinct, fresh⟩, old⟩
        · obtain ⟨rfl, rfl⟩ := List.cons.inj split
          exact absurd old (by simpa using repeated)
        · obtain ⟨rfl, rfl⟩ := List.cons.inj split
          rw [List.map_cons, List.nodup_cons] at distinct
          refine ⟨before, after, rfl, ⟨distinct.2, fun other inBefore older => ?_⟩, ?_⟩
          · rcases List.mem_cons.mp older with same | older
            · exact distinct.1 (same ▸ List.mem_map_of_mem inBefore)
            · exact fresh other (List.mem_cons_of_mem _ inBefore) older
          · simpa only [List.map_cons, List.mem_cons, or_assoc, or_left_comm] using old

theorem not_isDeclared_iff {decls : List ConstDecl} {outer : Option Scope} {name : String} :
    (!isDeclared decls outer name) = true ↔ ¬Declared decls outer name := by
  rw [Bool.not_eq_true', ← Bool.not_eq_true]
  exact not_congr isDeclared_iff

theorem firstUndefined?_eq_some {decls : List ConstDecl} {outer : Option Scope}
    {reference : String × Span} :
    firstUndefined? decls outer = some reference ↔
      ∃ before after, decls.flatMap (·.value.references) = before ++ reference :: after ∧
        (∀ other ∈ before, Declared decls outer other.1) ∧ ¬Declared decls outer reference.1 := by
  unfold firstUndefined?
  rw [List.find?_eq_some_iff_append, not_isDeclared_iff]
  simp only [Bool.not_not, isDeclared_iff]
  exact ⟨fun ⟨missing, before, after, split, declared⟩ => ⟨before, after, split, declared, missing⟩,
    fun ⟨before, after, split, declared, missing⟩ => ⟨missing, before, after, split, declared⟩⟩

theorem firstUndefined?_eq_none_iff {decls : List ConstDecl} {outer : Option Scope} :
    firstUndefined? decls outer = none ↔
      ∀ reference ∈ decls.flatMap (·.value.references), Declared decls outer reference.1 := by
  unfold firstUndefined?
  rw [List.find?_eq_none]
  simp only [Bool.not_eq_true, Bool.not_eq_false', isDeclared_iff]
  rfl

/-! ### Declarations that are left over -/

/-- What is placed names nothing that is left over. -/
theorem settle_apart (waiting : List Placed) :
    ∀ entry ∈ (settle waiting).1, ∀ other ∈ (settle waiting).2,
      ¬entry.1.Names other.1.name := by
  induction waiting using settle.induct with
  | case1 waiting found =>
    rw [settle_of_none found]
    exact fun _ inside => absurd inside List.not_mem_nil
  | case2 waiting entry found _ _ _ inductionHypothesis =>
    have free := isReady_iff.mp (List.find?_some found)
    have parts := settle_perm waiting
    rw [settle_of_some found] at parts ⊢
    refine List.forall_mem_cons.mpr ⟨fun other member => ?_, inductionHypothesis⟩
    exact free other (parts.mem_iff.mp (List.mem_append_right _ member))

/-- What is left over keeps its order. -/
theorem settle_sublist (waiting : List Placed) : (settle waiting).2.Sublist waiting := by
  induction waiting using settle.induct with
  | case1 waiting found => rw [settle_of_none found]
  | case2 waiting entry found _ _ _ inductionHypothesis =>
    rw [settle_of_some found]
    exact inductionHypothesis.trans List.eraseP_sublist

/-- Every declaration that is left over names one that is left over. -/
theorem settle_stuck_names (waiting : List Placed) :
    ∀ entry ∈ (settle waiting).2, ∃ other ∈ (settle waiting).2, entry.1.Names other.1.name := by
  induction waiting using settle.induct with
  | case1 waiting found =>
    rw [settle_of_none found]
    intro entry member
    have busy := List.find?_eq_none.mp found entry member
    rw [isReady_iff] at busy
    push Not at busy
    exact busy
  | case2 waiting entry found _ _ _ inductionHypothesis =>
    rw [settle_of_some found]
    exact inductionHypothesis

end ConstOrder

/-- In a row where each names one of the row, every declaration meets a circle: a finite row
cannot be followed for ever without coming back. -/
theorem meetsCircle_of_naming {decls row : List ConstDecl} (inside : ∀ decl ∈ row, decl ∈ decls)
    (naming : ∀ decl ∈ row, ∃ other ∈ row, decl.Names other.name) :
    ∀ decl ∈ row, MeetsCircle decls decl := by
  let Away := {decl // decl ∈ row ∧ ¬MeetsCircle decls decl}
  let Beyond (first second : Away) : Prop := Relation.TransGen (Uses decls) second.1 first.1
  have finite : Finite Away :=
    ((List.finite_toSet row).subset (fun _ both => both.1 : {decl | _} ⊆ _)).to_subtype
  have transitive : IsTrans Away Beyond := ⟨fun _ _ _ first second => second.trans first⟩
  have irreflexive : Std.Irrefl Beyond := ⟨fun decl circle => decl.2.2 ⟨decl.1, .refl, circle⟩⟩
  have empty (away : Away) : False := by
    induction away using (Finite.wellFounded_of_trans_of_irrefl Beyond).induction with
    | _ away inductionHypothesis =>
      obtain ⟨decl, member, apart⟩ := away
      obtain ⟨other, inRow, names⟩ := naming decl member
      have uses : Uses decls decl other := ⟨inside decl member, inside other inRow, names⟩
      refine inductionHypothesis ⟨other, inRow, ?_⟩ (.single uses)
      rintro ⟨last, reached, circle⟩
      exact apart ⟨last, reached.head uses, circle⟩
  intro decl member
  by_contra apart
  exact empty ⟨decl, member, apart⟩

/-- A row that is in order and names nothing of the list beside itself meets no circle. -/
theorem InOrder.not_meetsCircle {decls row : List ConstDecl} (ordered : InOrder row)
    (distinct : (row.map ConstDecl.name).Nodup)
    (closed : ∀ decl ∈ row, ∀ other, Uses decls decl other → other ∈ row) :
    ∀ decl ∈ row, ¬MeetsCircle decls decl := by
  obtain ⟨rank, ranked⟩ := ordered.exists_ranked distinct
  have stays {first second : ConstDecl} (reached : Relation.ReflTransGen (Uses decls) first second)
      (member : first ∈ row) : second ∈ row := by
    induction reached with
    | refl => exact member
    | tail _ uses inRow => exact closed _ inRow _ uses
  have sinks {first second : ConstDecl} (reached : Relation.TransGen (Uses decls) first second)
      (member : first ∈ row) : rank second.name < rank first.name := by
    induction reached with
    | single uses => exact ranked _ member _ (closed _ member _ uses) uses.2.2
    | tail before uses lower =>
      have inRow := stays before.to_reflTransGen member
      exact (ranked _ inRow _ (closed _ inRow _ uses) uses.2.2).trans lower
  rintro decl member ⟨other, reached, circle⟩
  exact absurd (sinks circle (stays reached member)) (Nat.lt_irrefl _)

open Classical in
/-- What is left over of a list are the declarations that meet a circle, in source order. -/
theorem settle_stuck_eq {decls : List ConstDecl} (distinct : (decls.map ConstDecl.name).Nodup) :
    (ConstOrder.settle decls.zipIdx).2.map Prod.fst =
      decls.filter fun decl => MeetsCircle decls decl := by
  have parts := (ConstOrder.settle_perm decls.zipIdx).map Prod.fst
  have ordered := ConstOrder.settle_inOrder decls.zipIdx
  have apart := ConstOrder.settle_apart decls.zipIdx
  have naming := ConstOrder.settle_stuck_names decls.zipIdx
  have kept := (ConstOrder.settle_sublist decls.zipIdx).map Prod.fst
  rw [List.map_append, List.zipIdx_map_fst] at parts
  rw [List.zipIdx_map_fst] at kept
  generalize ConstOrder.settle decls.zipIdx = settled at *
  obtain ⟨placed, stuck⟩ := settled
  have names := (parts.map ConstDecl.name).nodup_iff.mpr distinct
  rw [List.map_append] at names
  have meets : ∀ decl ∈ stuck.map Prod.fst, MeetsCircle decls decl := by
    refine meetsCircle_of_naming (fun decl member => kept.subset member) fun decl member => ?_
    obtain ⟨entry, inStuck, rfl⟩ := List.mem_map.mp member
    obtain ⟨other, given, used⟩ := naming entry inStuck
    exact ⟨other.1, List.mem_map_of_mem given, used⟩
  have avoids : ∀ decl ∈ placed.map Prod.fst, ¬MeetsCircle decls decl := by
    refine ordered.not_meetsCircle names.of_append_left fun decl member other uses => ?_
    obtain ⟨entry, inPlaced, rfl⟩ := List.mem_map.mp member
    refine (List.mem_append.mp (parts.mem_iff.mpr uses.2.1)).resolve_right fun left => ?_
    obtain ⟨rest, inStuck, rfl⟩ := List.mem_map.mp left
    exact apart entry inPlaced rest inStuck uses.2.2
  have narrowed := kept.filter fun decl => decide (MeetsCircle decls decl)
  rw [List.filter_eq_self.mpr fun decl member => decide_eq_true (meets decl member)] at narrowed
  refine narrowed.eq_of_length_le (List.Nodup.subperm ?_ fun decl member => ?_).length_le
  · exact (List.Nodup.of_map _ distinct).filter _
  · obtain ⟨inDecls, circle⟩ := List.mem_filter.mp member
    refine (List.mem_append.mp (parts.mem_iff.mpr inDecls)).resolve_left fun inPlaced => ?_
    exact avoids decl inPlaced (of_decide_eq_true circle)

/-! ### Orders -/

theorem readThrough_map_snd {decls : List ConstDecl} {order : List Nat}
    (inside : ∀ index ∈ order, index < decls.length) :
    (readThrough decls order).map Prod.snd = order := by
  induction order with
  | nil => rfl
  | cons index rest inductionHypothesis =>
    rw [List.forall_mem_cons] at inside
    unfold readThrough
    rw [List.filterMap_cons_some (by rw [List.getElem?_eq_getElem inside.1]; rfl)]
    exact congrArg (index :: ·) (inductionHypothesis inside.2)

theorem readThrough_of_placed {decls : List ConstDecl} {entries : List Placed}
    (placed : ∀ entry ∈ entries, entry ∈ decls.zipIdx) :
    readThrough decls (entries.map Prod.snd) = entries := by
  induction entries with
  | nil => rfl
  | cons entry rest inductionHypothesis =>
    rw [List.forall_mem_cons] at placed
    have known : decls[entry.2]? = some entry.1 := List.mem_zipIdx_iff_getElem?.mp placed.1
    unfold readThrough
    rw [List.map_cons, List.filterMap_cons_some (by rw [known]; rfl)]
    exact congrArg (entry :: ·) (inductionHypothesis placed.2)

theorem zipIdx_map_snd_eq_range (decls : List ConstDecl) :
    decls.zipIdx.map Prod.snd = List.range decls.length := by
  rw [List.zipIdx_map_snd, List.range_eq_range']

theorem Orders.readThrough_perm {decls : List ConstDecl} {order : List Nat}
    (orders : Orders decls order) : (readThrough decls order).Perm decls.zipIdx := by
  have same := orders.perm.filterMap fun index => decls[index]?.map (·, index)
  rw [← zipIdx_map_snd_eq_range] at same
  exact same.trans (.of_eq (readThrough_of_placed fun _ => id))

namespace ConstOrder

/-- The first that is ready stands before every other that is. -/
theorem find?_least {waiting : List Placed} {next entry : Placed}
    (sorted : (waiting.map Prod.snd).Pairwise (· < ·))
    (found : waiting.find? (isReady waiting) = some next) (member : entry ∈ waiting)
    (ready : isReady waiting entry = true) : entry = next ∨ next.2 < entry.2 := by
  obtain ⟨_, before, after, split, busy⟩ := List.find?_eq_some_iff_append.mp found
  have behind : entry ∈ next :: after := by
    refine (List.mem_append.mp (split ▸ member)).resolve_left fun inBefore => ?_
    exact absurd ready (by simpa using busy entry inBefore)
  rw [split, List.map_append, List.map_cons] at sorted
  have later := (List.pairwise_cons.mp (List.pairwise_append.mp sorted).2.1).1
  rcases List.mem_cons.mp behind with same | inAfter
  · exact .inl same
  · exact .inr (later entry.2 (List.mem_map_of_mem inAfter))

/-- No other row in order has lesser places. The first of such a row is ready, so that it is the
one that is taken or stands behind it. -/
theorem settle_least {waiting others : List Placed}
    (sorted : (waiting.map Prod.snd).Pairwise (· < ·)) (same : others.Perm waiting)
    (ordered : InOrder (others.map Prod.fst)) :
    (settle waiting).1.map Prod.snd ≤ others.map Prod.snd := by
  induction waiting using settle.induct generalizing others with
  | case1 waiting found =>
    rw [settle_of_none found]
    exact not_lt.mp (List.not_lt_nil _)
  | case2 waiting next found _ _ _ inductionHypothesis =>
    rw [settle_of_some found, List.map_cons]
    have rest := perm_cons_eraseP found
    cases others with
    | nil => exact absurd (same.trans rest.symm).length_eq (by simp)
    | cons entry others =>
      obtain ⟨free, behind⟩ : (∀ other ∈ (entry :: others).map Prod.fst,
          ¬entry.1.Names other.name) ∧ InOrder (others.map Prod.fst) := by
        cases ordered with
        | cons free behind => exact ⟨free, behind⟩
      have ready : isReady waiting entry = true :=
        isReady_iff.mpr fun other member =>
          free other.1 (List.mem_map_of_mem (same.mem_iff.mpr member))
      rcases find?_least sorted found (same.subset List.mem_cons_self) ready with rfl | lower
      · refine List.cons_le_cons _ (inductionHypothesis ?_ ?_ behind)
        · exact sorted.sublist (List.eraseP_sublist.map _)
        · exact (same.trans rest.symm).cons_inv
      · exact le_of_lt (List.Lex.rel lower)

end ConstOrder

/-- If nothing is left over, the places in the order of taking are the least order. -/
theorem settle_isLeast {decls : List ConstDecl}
    (done : (ConstOrder.settle decls.zipIdx).2 = []) :
    IsLeast {order | Orders decls order} ((ConstOrder.settle decls.zipIdx).1.map Prod.snd) := by
  have parts := ConstOrder.settle_perm decls.zipIdx
  rw [done, List.append_nil] at parts
  refine ⟨⟨?_, ?_⟩, fun order orders => ?_⟩
  · exact (parts.map Prod.snd).trans (.of_eq (zipIdx_map_snd_eq_range decls))
  · rw [readThrough_of_placed fun _ member => parts.subset member]
    exact ConstOrder.settle_inOrder decls.zipIdx
  · have inside (index : Nat) (member : index ∈ order) : index < decls.length :=
      List.mem_range.mp (orders.perm.subset member)
    rw [← readThrough_map_snd inside]
    refine ConstOrder.settle_least ?_ orders.readThrough_perm orders.inOrder
    rw [zipIdx_map_snd_eq_range]
    exact List.pairwise_lt_range

/-! ### The answer of sorting -/

theorem OnCircle.mem {decls : List ConstDecl} {decl : ConstDecl} (circle : OnCircle decls decl) :
    decl ∈ decls := by
  obtain ⟨_, uses, _⟩ := Relation.TransGen.head'_iff.mp circle
  exact uses.1

/-- Nothing is left over exactly if there is no circle. -/
theorem settle_stuck_eq_nil_iff {decls : List ConstDecl}
    (distinct : (decls.map ConstDecl.name).Nodup) :
    (ConstOrder.settle decls.zipIdx).2 = [] ↔ ∀ decl, ¬OnCircle decls decl := by
  classical
  rw [← List.map_eq_nil_iff, settle_stuck_eq distinct, List.filter_eq_nil_iff]
  simp only [decide_eq_true_eq]
  constructor
  · exact fun apart decl circle => apart decl circle.mem ⟨decl, .refl, circle⟩
  · rintro straight decl _ ⟨other, _, circle⟩
    exact straight other circle

/-- Some answer is right. -/
theorem exists_sortsTo (decls : List ConstDecl) (outer : Option Scope) :
    ∃ answer, SortsTo decls outer answer := by
  cases once : ConstOrder.firstRepeated? [] decls with
  | some decl =>
    obtain ⟨before, after, split, ⟨distinct, _⟩, old⟩ := ConstOrder.firstRepeated?_eq_some.mp once
    exact ⟨_, .repeated split distinct (old.resolve_left List.not_mem_nil)⟩
  | none =>
    have distinct := (ConstOrder.firstRepeated?_eq_none.mp once).1
    cases known : ConstOrder.firstUndefined? decls outer with
    | some reference =>
      obtain ⟨before, after, split, declared, missing⟩ :=
        ConstOrder.firstUndefined?_eq_some.mp known
      exact ⟨_, .undefined distinct split declared missing⟩
    | none =>
      have declared := ConstOrder.firstUndefined?_eq_none_iff.mp known
      by_cases straight : ∀ decl, ¬OnCircle decls decl
      · have done := (settle_stuck_eq_nil_iff distinct).mpr straight
        exact ⟨_, .ordered distinct declared straight (settle_isLeast done)⟩
      · push Not at straight
        obtain ⟨decl, circle⟩ := straight
        exact ⟨_, .cyclic distinct declared circle⟩

/-- The right answer is the one that is given. -/
theorem SortsTo.sortConsts_eq {decls : List ConstDecl} {outer : Option Scope}
    {answer : Except SemanticError (List Placed)} (sorts : SortsTo decls outer answer) :
    sortConsts decls outer = answer := by
  cases sorts with
  | repeated split distinct old =>
    have once := ConstOrder.firstRepeated?_eq_some.mpr
      ⟨_, _, split, ⟨distinct, fun _ _ => List.not_mem_nil⟩, .inr old⟩
    simp only [sortConsts_eq_settled, ConstOrder.settled, once]
  | undefined distinct split declared missing =>
    have once := ConstOrder.firstRepeated?_eq_none.mpr ⟨distinct, fun _ _ => List.not_mem_nil⟩
    have known := ConstOrder.firstUndefined?_eq_some.mpr ⟨_, _, split, declared, missing⟩
    simp only [sortConsts_eq_settled, ConstOrder.settled, once, known]
  | cyclic distinct declared circle =>
    have once := ConstOrder.firstRepeated?_eq_none.mpr ⟨distinct, fun _ _ => List.not_mem_nil⟩
    have known := ConstOrder.firstUndefined?_eq_none_iff.mpr declared
    have stuck := settle_stuck_eq distinct
    have rest : (ConstOrder.settle decls.zipIdx).2 ≠ [] := fun none =>
      (settle_stuck_eq_nil_iff distinct).mp none _ circle
    rw [← stuck, List.map_map]
    simp only [sortConsts_eq_settled, ConstOrder.settled, once, known]
    rfl
  | ordered distinct declared straight least =>
    have once := ConstOrder.firstRepeated?_eq_none.mpr ⟨distinct, fun _ _ => List.not_mem_nil⟩
    have known := ConstOrder.firstUndefined?_eq_none_iff.mpr declared
    have done := (settle_stuck_eq_nil_iff distinct).mpr straight
    have parts := ConstOrder.settle_perm decls.zipIdx
    rw [done, List.append_nil] at parts
    rw [least.unique (settle_isLeast done),
      readThrough_of_placed fun _ member => parts.subset member]
    exact sortConsts_eq_ok_iff.mpr ⟨once, known, Prod.ext rfl done⟩

/-- Sorting answers what it is to answer, and nothing else. -/
theorem sortConsts_eq_iff_sortsTo (decls : List ConstDecl) (outer : Option Scope)
    (answer : Except SemanticError (List Placed)) :
    sortConsts decls outer = answer ↔ SortsTo decls outer answer := by
  constructor
  · rintro rfl
    obtain ⟨answer, sorts⟩ := exists_sortsTo decls outer
    rw [sorts.sortConsts_eq]
    exact sorts
  · exact SortsTo.sortConsts_eq

end BehaviourScript
