/-
This file says in plain words what the loop over a queue of declarations does: it
takes the first declaration of the source that names none that still waits,
again and again. The loop never looks for that declaration. It counts for each
declaration how many of its references still wait, takes one off a count
whenever what a reference names is placed, and keeps in a sorted queue the
places whose count came down to zero. The two agree because every count is, at
every turn, the number of references to declarations that wait: no count is
taken below zero, and what is left over in the end is what has a count.
-/

import BehaviourScript.Scope.Order
import Mathlib.Data.List.Sort

namespace BehaviourScript

namespace ConstOrder

/-! ### The order in plain words -/

/-- The first declaration whose name an earlier one has. -/
def firstRepeated? (seen : List String) : List ConstDecl → Option ConstDecl
  | [] => none
  | decl :: rest =>
    if seen.contains decl.name then some decl else firstRepeated? (decl.name :: seen) rest

/-- Whether a name is declared in a list or in the scope around it. -/
def isDeclared (decls : List ConstDecl) (outer : Option Scope) (name : String) : Bool :=
  decls.any (·.name == name) || outer.any (·.contains name)

/-- The first reference to a const that is declared nowhere. -/
def firstUndefined? (decls : List ConstDecl) (outer : Option Scope) : Option (String × Span) :=
  (decls.flatMap (·.value.references)).find? fun reference => !isDeclared decls outer reference.1

/-- Whether a declaration names none that still waits, itself included. -/
def isReady (waiting : List Placed) (entry : Placed) : Bool :=
  entry.1.value.references.all fun reference =>
    waiting.all fun other => other.1.name != reference.1

/-- Takes the first declaration that is ready, again and again. What is left in
the end names each other in a circle, or names such a circle. -/
def settle (waiting : List Placed) : List Placed × List Placed :=
  match _ : waiting.find? (isReady waiting) with
  | none => ([], waiting)
  | some next =>
    let (placed, stuck) := settle (waiting.eraseP (isReady waiting))
    (next :: placed, stuck)
termination_by waiting.length
decreasing_by
  have found : waiting.find? (isReady waiting) = some next := by assumption
  have member := List.mem_of_find?_eq_some found
  have shorter := List.length_eraseP_of_mem member (List.find?_some found)
  have nonempty := List.length_pos_of_mem member
  omega

/-- The answer of a sorting that settles the list. -/
def settled (decls : List ConstDecl) (outer : Option Scope) : Except SemanticError (List Placed) :=
  match firstRepeated? [] decls with
  | some decl => .error (.duplicateConst decl.name decl.span.start)
  | none =>
    match firstUndefined? decls outer with
    | some (name, span) => .error (.undefinedConst name span.start)
    | none =>
      match settle decls.zipIdx with
      | (placed, []) => .ok placed
      | (_, stuck) => .error (.cyclicConst (stuck.map (·.1.name)))

theorem firstRepeated?_eq_none {seen : List String} {decls : List ConstDecl} :
    firstRepeated? seen decls = none ↔
      (decls.map ConstDecl.name).Nodup ∧ ∀ decl ∈ decls, decl.name ∉ seen := by
  induction decls generalizing seen with
  | nil => exact iff_of_true rfl ⟨.nil, nofun⟩
  | cons decl rest inductionHypothesis =>
    rw [List.map_cons, List.nodup_cons, List.forall_mem_cons, firstRepeated?]
    by_cases repeated : decl.name ∈ seen
    · rw [if_pos (List.contains_iff_mem.mpr repeated)]
      exact iff_of_false nofun fun both => both.2.1 repeated
    · rw [if_neg (fun found => repeated (List.contains_iff_mem.mp found)), inductionHypothesis]
      constructor
      · rintro ⟨distinct, fresh⟩
        refine ⟨⟨fun member => ?_, distinct⟩, repeated, fun other inRest old => ?_⟩
        · obtain ⟨other, inRest, same⟩ := List.mem_map.mp member
          exact fresh other inRest (same ▸ List.mem_cons_self)
        · exact fresh other inRest (List.mem_cons_of_mem _ old)
      · rintro ⟨⟨apart, distinct⟩, _, fresh⟩
        refine ⟨distinct, fun other inRest old => ?_⟩
        rcases List.mem_cons.mp old with same | older
        · exact apart (same ▸ List.mem_map_of_mem inRest)
        · exact fresh other inRest older

theorem settle_of_none {waiting : List Placed} (none : waiting.find? (isReady waiting) = none) :
    settle waiting = ([], waiting) := by
  rw [settle]
  split
  · rfl
  · next some => cases none.symm.trans some

theorem settle_of_some {waiting : List Placed} {entry : Placed}
    (some : waiting.find? (isReady waiting) = some entry) :
    settle waiting =
      (entry :: (settle (waiting.eraseP (isReady waiting))).1,
        (settle (waiting.eraseP (isReady waiting))).2) := by
  rw [settle]
  split
  · next none => cases some.symm.trans none
  · next other found =>
    cases some.symm.trans found
    rfl

theorem perm_cons_eraseP {α : Type} {keep : α → Bool} {items : List α} {item : α}
    (found : items.find? keep = some item) : (item :: items.eraseP keep).Perm items := by
  induction items with
  | nil => exact nomatch found
  | cons head rest inductionHypothesis =>
    cases kept : keep head with
    | true =>
      rw [List.find?_cons_of_pos kept] at found
      cases found
      rw [List.eraseP_cons_of_pos kept]
    | false =>
      have passed : ¬keep head = true := Bool.not_eq_true _ ▸ kept
      rw [List.find?_cons_of_neg passed] at found
      rw [List.eraseP_cons_of_neg passed]
      exact (List.Perm.swap head item _).trans ((inductionHypothesis found).cons head)

/-- Every declaration is placed or left over. -/
theorem settle_perm (waiting : List Placed) :
    ((settle waiting).1 ++ (settle waiting).2).Perm waiting := by
  induction waiting using settle.induct with
  | case1 waiting found => rw [settle_of_none found, List.nil_append]
  | case2 waiting entry found _ _ _ inductionHypothesis =>
    rw [settle_of_some found]
    exact (inductionHypothesis.cons entry).trans (perm_cons_eraseP found)

/-! ### The places of the names -/

section Index

variable {count : Nat} {index : IndexMap String (Fin count)} {seen : List String}

theorem indexNames_cons (entry : ConstDecl × Fin count) (rest : List (ConstDecl × Fin count)) :
    indexNames index (entry :: rest) =
      if (index.get? entry.1.name).isSome then
        .error (.duplicateConst entry.1.name entry.1.span.start)
      else indexNames (index.insert entry.1.name entry.2).2 rest := rfl

/-- Indexing stops at the first name that is there already. -/
theorem indexNames_of_repeated (known : ∀ name, (index.get? name).isSome = seen.contains name)
    {entries : List (ConstDecl × Fin count)} {decl : ConstDecl}
    (found : firstRepeated? seen (entries.map Prod.fst) = some decl) :
    indexNames index entries = .error (.duplicateConst decl.name decl.span.start) := by
  induction entries generalizing index seen with
  | nil => cases found
  | cons entry rest inductionHypothesis =>
    rw [List.map_cons, firstRepeated?, ← known] at found
    rw [indexNames_cons]
    split at found
    · next repeated =>
      cases found
      exact if_pos repeated
    · next fresh =>
      rw [if_neg fresh]
      refine inductionHypothesis (fun name => ?_) found
      rw [IndexMap.get?_insert, List.contains_cons, ← known]
      by_cases same : name = entry.1.name <;> simp [same]

/-- If there is none, every name gets its place. -/
theorem indexNames_of_fresh (index : IndexMap String (Fin count))
    {entries : List (ConstDecl × Fin count)}
    (distinct : (entries.map (·.1.name)).Nodup)
    (fresh : ∀ entry ∈ entries, index.get? entry.1.name = none) :
    ∃ full, indexNames index entries = .ok full ∧ ∀ name place,
      full.get? name = some place ↔
        (∃ decl, (decl, place) ∈ entries ∧ decl.name = name) ∨ index.get? name = some place := by
  induction entries generalizing index with
  | nil => exact ⟨index, rfl, by simp⟩
  | cons entry rest inductionHypothesis =>
    rw [List.map_cons, List.nodup_cons] at distinct
    rw [List.forall_mem_cons] at fresh
    have later : ∀ other ∈ rest,
        (index.insert entry.1.name entry.2).2.get? other.1.name = none := by
      intro other member
      have apart : other.1.name ≠ entry.1.name := fun same =>
        distinct.1 (same ▸ List.mem_map_of_mem member)
      rw [IndexMap.get?_insert, if_neg apart]
      exact fresh.2 other member
    obtain ⟨full, indexed, places⟩ := inductionHypothesis _ distinct.2 later
    refine ⟨full, ?_, fun name place => ?_⟩
    · rw [indexNames_cons, fresh.1]
      exact indexed
    · rw [places, IndexMap.get?_insert]
      grind

theorem map_fst_placed (decls : List ConstDecl) : (placed decls).map Prod.fst = decls := by
  rw [placed, List.map_map]
  exact List.map_get_finRange decls

/-- The index of a list gives each declared name its place. -/
theorem indexNames_decls {decls : List ConstDecl} (distinct : (decls.map ConstDecl.name).Nodup) :
    ∃ index, indexNames .empty (placed decls) = .ok index ∧
      ∀ name place, index.get? name = some place ↔ (decls.get place).name = name := by
  have names : (placed decls).map (·.1.name) = decls.map ConstDecl.name := by
    simpa [Function.comp_def] using congrArg (List.map ConstDecl.name) (map_fst_placed decls)
  obtain ⟨index, indexed, places⟩ := indexNames_of_fresh .empty (names ▸ distinct) fun _ _ => rfl
  refine ⟨index, indexed, fun name place => ?_⟩
  rw [places]
  simp [placed, IndexMap.get?, IndexMap.empty]

end Index

/-! ### The references -/

/-- A place of a table that is set holds the new value, and every other what it held. -/
theorem get_set {α : Type} {count : Nat} (table : Vector α count) (place other : Fin count)
    (value : α) :
    (table.set place value place.isLt).get other =
      if place = other then value else table.get other := by
  refine (Vector.getElem_set place.isLt other.isLt).trans ?_
  simp only [Fin.ext_iff]
  rfl

theorem get_replicate {α : Type} {count : Nat} (value : α) (place : Fin count) :
    (Vector.replicate count value).get place = value := Vector.getElem_replicate place.isLt

section References

variable {count : Nat} {index : IndexMap String (Fin count)} {outer : Option Scope}

/-- A graph counts references: those of each declaration to the list, and those of each declaration
to each other. -/
structure Graph.Counts (index : IndexMap String (Fin count)) (graph : Graph count)
    (uses : List (Use count)) : Prop where
  degrees : ∀ place : Fin count, graph.degrees.get place =
    uses.countP fun use => use.2 == place && (index.get? use.1.1).isSome
  dependents : ∀ target place : Fin count, (graph.dependents.get target).count place =
    uses.countP fun use => use.2 == place && index.get? use.1.1 == some target

namespace Graph

variable {graph : Graph count} {done : List (Use count)}

theorem counts_empty : (empty : Graph count).Counts index [] where
  degrees place := get_replicate 0 place
  dependents target place := congrArg (List.count place) (get_replicate [] target)

/-- A link counts one reference more. -/
theorem Counts.link (counts : graph.Counts index done) {use : Use count} {target : Fin count}
    (known : index.get? use.1.1 = some target) :
    (graph.link use.2 target).Counts index (done ++ [use]) where
  degrees place := by
    have before := counts.degrees place
    simp only [Graph.link, get_set, List.countP_append, List.countP_singleton, known] at before ⊢
    grind
  dependents goal place := by
    have before := counts.dependents goal place
    simp only [Graph.link, get_set, List.countP_append, List.countP_singleton, known] at before ⊢
    grind

/-- A reference to the scope around the list is not counted. -/
theorem Counts.skip (counts : graph.Counts index done) {use : Use count}
    (unknown : index.get? use.1.1 = none) : graph.Counts index (done ++ [use]) where
  degrees place := by simp [counts.degrees place, unknown]
  dependents goal place := by simpa [unknown] using counts.dependents goal place

/-- A graph is read up to the first reference that is declared nowhere. -/
theorem read_of_undefined {uses : List (Use count)} {use : Use count}
    (found : uses.find? (fun use =>
      (index.get? use.1.1).isNone && !outer.any (·.contains use.1.1)) = some use) :
    read index outer graph uses = .error (.undefinedConst use.1.1 use.1.2.start) := by
  induction uses generalizing graph with
  | nil => cases found
  | cons first rest inductionHypothesis =>
    rw [List.find?_cons] at found
    unfold read
    grind

/-- If there is none, all references are counted. -/
theorem read_of_declared {uses : List (Use count)} (counts : graph.Counts index done)
    (declared : ∀ use ∈ uses, (index.get? use.1.1).isSome ∨ outer.any (·.contains use.1.1) = true) :
    ∃ full, read index outer graph uses = .ok full ∧ full.Counts index (done ++ uses) := by
  induction uses generalizing graph done with
  | nil => exact ⟨graph, rfl, (List.append_nil done).symm ▸ counts⟩
  | cons first rest inductionHypothesis =>
    rw [List.forall_mem_cons] at declared
    rw [List.append_cons]
    unfold read
    cases known : index.get? first.1.1 with
    | some target => exact inductionHypothesis (counts.link known) declared.2
    | none =>
      have around : outer.any (·.contains first.1.1) = true := by simpa [known] using declared.1
      simp only [around, if_true]
      exact inductionHypothesis (counts.skip known) declared.2

end Graph

end References

/-! ### The queue -/

section Release

variable {count : Nat} {queue : Queue count} {place : Fin count}

theorem mem_insertPlace {other : Fin count} {places : List (Fin count)} :
    other ∈ insertPlace place places ↔ other = place ∨ other ∈ places := by
  fun_induction insertPlace place places <;> grind

theorem pairwise_insertPlace {places : List (Fin count)} (sorted : places.Pairwise (· < ·)) :
    (insertPlace place places).Pairwise (· < ·) := by
  fun_induction insertPlace place places with
  | case1 => exact List.pairwise_singleton _ _
  | case2 first rest before =>
    refine List.pairwise_cons.mpr ⟨fun other member => ?_, sorted⟩
    rcases List.mem_cons.mp member with rfl | behind
    · exact before
    · exact before.trans (List.rel_of_pairwise_cons sorted behind)
  | case3 => exact sorted
  | case4 first rest notBefore different inductionHypothesis =>
    rw [List.pairwise_cons] at sorted ⊢
    refine ⟨fun other member => ?_, inductionHypothesis sorted.2⟩
    rcases mem_insertPlace.mp member with rfl | behind
    · omega
    · exact sorted.1 other behind

/-- A release takes one off a count. -/
theorem Queue.degrees_release (waits : 0 < queue.degrees.get place) (other : Fin count) :
    (queue.release place).degrees.get other = queue.degrees.get other - [place].count other := by
  unfold release
  split <;> grind [get_set]

/-- A place becomes ready with the last release. -/
theorem Queue.mem_ready_release (waits : 0 < queue.degrees.get place) (other : Fin count) :
    other ∈ (queue.release place).ready ↔
      other ∈ queue.ready ∨ other = place ∧ queue.degrees.get place = 1 := by
  unfold release
  split <;> grind [mem_insertPlace]

theorem Queue.pairwise_ready_release (sorted : queue.ready.Pairwise (· < ·)) :
    (queue.release place).ready.Pairwise (· < ·) := by
  unfold release
  split
  · exact sorted
  · exact pairwise_insertPlace sorted
  · exact sorted

/-- Releases that no count is too small for take off each count as many as there are, and make those
ready whose count they use up. -/
theorem Queue.foldl_release (queue : Queue count) {places : List (Fin count)}
    (enough : ∀ place, places.count place ≤ queue.degrees.get place)
    (sorted : queue.ready.Pairwise (· < ·)) :
    (∀ place : Fin count, (places.foldl release queue).degrees.get place =
        queue.degrees.get place - places.count place) ∧
      (places.foldl release queue).ready.Pairwise (· < ·) ∧
      ∀ place, place ∈ (places.foldl release queue).ready ↔
        place ∈ queue.ready ∨ place ∈ places ∧ queue.degrees.get place = places.count place := by
  induction places generalizing queue with
  | nil => exact ⟨fun _ => rfl, sorted, by simp⟩
  | cons first rest inductionHypothesis =>
    have waits : 0 < queue.degrees.get first := Nat.lt_of_lt_of_le (by simp) (enough first)
    have degrees := degrees_release waits
    have ready := mem_ready_release waits
    have left (other : Fin count) : rest.count other ≤ (queue.release first).degrees.get other := by
      have many := enough other
      rw [degrees]
      grind
    obtain ⟨counts, order, members⟩ := inductionHypothesis _ left (pairwise_ready_release sorted)
    refine ⟨fun other => ?_, order, fun other => ?_⟩
    · rw [List.foldl_cons, counts, degrees]
      grind
    · rw [List.foldl_cons, members, ready, degrees]
      have many := enough other
      have one : 0 < rest.count other ↔ other ∈ rest := List.count_pos_iff
      grind

end Release

/-! ### The loop -/

section Loop

variable {decls : List ConstDecl}

/-- The declaration at a place, with its place. -/
def entryAt (decls : List ConstDecl) (place : Fin decls.length) : Placed :=
  (decls.get place, place)

/-- How many references of the declaration at `place` are to declarations that wait. -/
def degree (decls : List ConstDecl) (waiting : List (Fin decls.length)) (place : Fin decls.length) :
    Nat :=
  (decls.get place).value.references.countP fun reference =>
    waiting.any fun other => (decls.get other).name == reference.1

/-- How many references of the declaration at `place` are to the one at `target`. -/
def usesOf (decls : List ConstDecl) (target place : Fin decls.length) : Nat :=
  (decls.get place).value.references.countP fun reference => (decls.get target).name == reference.1

/-- A declaration is ready once none of its references waits. -/
theorem isReady_comp_entryAt (waiting : List (Fin decls.length)) :
    isReady (waiting.map (entryAt decls)) ∘ entryAt decls = (degree decls waiting · == 0) := by
  funext place
  rw [Function.comp, Bool.eq_iff_iff, beq_iff_eq, degree, List.countP_eq_zero, isReady]
  simp [entryAt]

theorem degree_perm {waiting others : List (Fin decls.length)} (reordered : waiting.Perm others)
    (place : Fin decls.length) : degree decls waiting place = degree decls others place := by
  refine List.countP_congr fun reference _ => ?_
  simp only [List.any_eq_true, reordered.mem_iff]

/-- A declaration that waits is counted where it is named. -/
theorem degree_cons {waiting : List (Fin decls.length)} {next : Fin decls.length}
    (distinct : (decls.map ConstDecl.name).Nodup) (fresh : next ∉ waiting)
    (place : Fin decls.length) :
    degree decls (next :: waiting) place =
      degree decls waiting place + usesOf decls next place := by
  have apart : ∀ other ∈ waiting, (decls.get other).name ≠ (decls.get next).name := by
    intro other member same
    have equal := (@List.Nodup.getElem_inj_iff _ _ distinct other (by simp) next (by simp)).mp
      (by simpa using same)
    exact fresh (Fin.ext equal ▸ member)
  unfold degree usesOf
  rw [List.countP_eq_countP_filter_add _ _ fun reference => (decls.get next).name == reference.1,
    List.countP_filter, List.countP_filter, Nat.add_comm]
  refine congrArg₂ (· + ·) (List.countP_congr fun reference _ => ?_)
    (List.countP_congr fun reference _ => ?_)
  · simp
    grind
  · simp
    grind

/-- What the queue holds while the declarations at some places wait. -/
structure Queue.Tracks (decls : List ConstDecl) (waiting : List (Fin decls.length))
    (queue : Queue decls.length) : Prop where
  sorted : waiting.Pairwise (· < ·)
  degrees : ∀ place : Fin decls.length, queue.degrees.get place = degree decls waiting place
  ready : queue.ready = waiting.filter (degree decls waiting · == 0)
  placed : ∀ place, place ∉ waiting → degree decls waiting place = 0

namespace Queue

variable {waiting : List (Fin decls.length)} {queue : Queue decls.length}
  {dependents : Vector (List (Fin decls.length)) decls.length}

/-- A place is in the queue if it waits and none of its references does. -/
theorem Tracks.mem_ready_iff (tracks : queue.Tracks decls waiting) (place : Fin decls.length) :
    place ∈ queue.ready ↔ place ∈ waiting ∧ degree decls waiting place = 0 := by
  rw [tracks.ready, List.mem_filter, beq_iff_eq]

theorem Tracks.pairwise_ready (tracks : queue.Tracks decls waiting) :
    queue.ready.Pairwise (· < ·) := by
  rw [tracks.ready]
  exact tracks.sorted.filter _

section Turn

variable {next : Fin decls.length} {rest left : List (Fin decls.length)}

/-- The first place of the queue waits in front of those that are left behind it. -/
theorem Tracks.perm_eraseP (tracks : queue.Tracks decls waiting)
    (first : queue.ready = next :: rest) :
    (next :: waiting.eraseP (degree decls waiting · == 0)).Perm waiting := by
  refine perm_cons_eraseP ?_
  rw [← List.head?_filter, ← tracks.ready, first, List.head?_cons]

/-- What the releases of one turn leave without a count are the places that wait on and name none
that waits: they were in the queue, or the last that they named is the place that was taken. -/
theorem Tracks.mem_ready_or_used_iff (tracks : queue.Tracks decls waiting)
    (first : queue.ready = next :: rest) (parts : (next :: left).Perm waiting)
    {place : Fin decls.length} {used remaining : Nat}
    (total : degree decls waiting place = remaining + used) :
    place ∈ rest ∨ 0 < used ∧ degree decls waiting place = used ↔
      place ∈ left ∧ remaining = 0 := by
  have own : degree decls waiting next = 0 :=
    ((tracks.mem_ready_iff next).mp (first ▸ List.mem_cons_self)).2
  have fresh : next ∉ left := (List.nodup_cons.mp (parts.nodup_iff.mpr tracks.sorted.nodup)).1
  have order : ∀ other ∈ rest, next < other :=
    (List.pairwise_cons.mp (first ▸ tracks.pairwise_ready)).1
  have stays (waits : place ∈ waiting) (apart : place ≠ next) : place ∈ left :=
    (List.mem_cons.mp (parts.mem_iff.mpr waits)).resolve_left apart
  constructor
  · rintro (queued | ⟨named, last⟩)
    · obtain ⟨waits, zero⟩ := (tracks.mem_ready_iff place).mp (first ▸ List.mem_cons_of_mem _ queued)
      exact ⟨stays waits (order place queued).ne', by omega⟩
    · have waits : place ∈ waiting := by
        by_contra gone
        have zero := tracks.placed place gone
        omega
      have apart : place ≠ next := by
        rintro rfl
        omega
      exact ⟨stays waits apart, by omega⟩
  · rintro ⟨waits, zero⟩
    rcases Nat.eq_zero_or_pos used with unused | named
    · have queued : place ∈ next :: rest := first ▸ (tracks.mem_ready_iff place).mpr
        ⟨parts.mem_iff.mp (List.mem_cons_of_mem _ waits), by omega⟩
      have apart : place ≠ next := fun same => fresh (same ▸ waits)
      exact .inl ((List.mem_cons.mp queued).resolve_left apart)
    · exact .inr ⟨named, by omega⟩

/-- One turn of the loop: the first place that is ready no longer waits. -/
theorem Tracks.turn (distinct : (decls.map ConstDecl.name).Nodup)
    (counts : ∀ target place : Fin decls.length,
      (dependents.get target).count place = usesOf decls target place)
    (tracks : queue.Tracks decls waiting) (first : queue.ready = next :: rest) :
    ((dependents.get next).foldl release { queue with ready := rest }).Tracks decls
      (waiting.eraseP (degree decls waiting · == 0)) := by
  have parts := tracks.perm_eraseP first
  have sorted : (waiting.eraseP (degree decls waiting · == 0)).Pairwise (· < ·) :=
    tracks.sorted.sublist List.eraseP_sublist
  generalize waiting.eraseP (degree decls waiting · == 0) = left at parts sorted ⊢
  have fresh : next ∉ left := (List.nodup_cons.mp (parts.nodup_iff.mpr tracks.sorted.nodup)).1
  have total (place : Fin decls.length) :
      degree decls waiting place = degree decls left place + usesOf decls next place := by
    rw [← degree_perm parts, degree_cons distinct fresh]
  -- No count is taken below zero: a declaration is released once for each reference that it has.
  have enough (place : Fin decls.length) :
      (dependents.get next).count place ≤ queue.degrees.get place := by
    rw [counts, tracks.degrees, total]
    exact Nat.le_add_left _ _
  have order : rest.Pairwise (· < ·) := (List.pairwise_cons.mp (first ▸ tracks.pairwise_ready)).2
  obtain ⟨degrees, readySorted, ready⟩ := foldl_release { queue with ready := rest } enough order
  refine ⟨sorted, fun place => ?_, ?_, fun place gone => ?_⟩
  · rw [degrees, counts]
    show queue.degrees.get place - _ = _
    rw [tracks.degrees, total, Nat.add_sub_cancel_right]
  · refine readySorted.sortedLT.eq_of_mem_iff (sorted.filter _).sortedLT fun place => ?_
    have named : place ∈ dependents.get next ↔ 0 < usesOf decls next place := by
      rw [← counts, List.count_pos_iff]
    rw [ready, List.mem_filter, beq_iff_eq, named, counts]
    show place ∈ rest ∨ _ ∧ queue.degrees.get place = _ ↔ _
    rw [tracks.degrees]
    exact tracks.mem_ready_or_used_iff first parts (total place)
  · have settled : degree decls waiting place = 0 := by
      by_cases same : place = next
      · exact same ▸ ((tracks.mem_ready_iff next).mp (first ▸ List.mem_cons_self)).2
      · refine tracks.placed place fun waits => gone ?_
        exact (List.mem_cons.mp (parts.mem_iff.mpr waits)).resolve_left same
    exact (Nat.add_eq_zero_iff.mp ((total place).symm.trans settled)).1

end Turn

theorem drain_of_nil (idle : queue.ready = []) : queue.drain dependents = ([], queue.degrees) := by
  rw [drain]
  split
  · rfl
  · next busy => cases idle.symm.trans busy

theorem drain_of_cons {next : Fin decls.length} {rest : List (Fin decls.length)}
    (first : queue.ready = next :: rest) :
    queue.drain dependents =
      let others := drain dependents
        ((dependents.get next).foldl release { queue with ready := rest })
      (next :: others.1, others.2) := by
  rw [drain]
  split
  · next idle => cases first.symm.trans idle
  · next other later busy =>
    cases first.symm.trans busy
    rfl

/-- What is ready next is the same for the queue and for settling. -/
theorem Tracks.find?_isReady (tracks : queue.Tracks decls waiting) :
    (waiting.map (entryAt decls)).find? (isReady (waiting.map (entryAt decls))) =
      queue.ready.head?.map (entryAt decls) := by
  rw [List.find?_map, isReady_comp_entryAt, tracks.ready, List.head?_filter]

/-- In the end the places that wait are those with a count. -/
theorem Tracks.filter_degrees (tracks : queue.Tracks decls waiting) (idle : queue.ready = []) :
    stuck queue.degrees = waiting := by
  refine ((List.pairwise_lt_finRange _).filter _).sortedLT.eq_of_mem_iff tracks.sorted.sortedLT
    fun place => ?_
  have busy : place ∈ waiting → degree decls waiting place ≠ 0 := by
    have none := List.filter_eq_nil_iff.mp (tracks.ready.symm.trans idle)
    simpa using none place
  rw [List.mem_filter, decide_eq_true_eq, tracks.degrees, Nat.pos_iff_ne_zero]
  exact ⟨fun counted => not_not.mp fun gone => counted.2 (tracks.placed place gone),
    fun member => ⟨List.mem_finRange place, busy member⟩⟩

/-- The loop places what settling places, in the same order, and in the end the counts that are left
are those of the declarations that settling leaves over. -/
theorem Tracks.drain (distinct : (decls.map ConstDecl.name).Nodup)
    (counts : ∀ target place : Fin decls.length,
      (dependents.get target).count place = usesOf decls target place)
    (tracks : queue.Tracks decls waiting) :
    (queue.drain dependents).1.map (entryAt decls) = (settle (waiting.map (entryAt decls))).1 ∧
      (stuck (queue.drain dependents).2).map (entryAt decls) =
        (settle (waiting.map (entryAt decls))).2 := by
  induction queue using Queue.drain.induct dependents generalizing waiting with
  | case1 queue idle =>
    have none := tracks.find?_isReady
    rw [idle] at none
    rw [drain_of_nil idle, settle_of_none none, tracks.filter_degrees idle]
    exact ⟨rfl, rfl⟩
  | case2 queue next rest first _ _ _ inductionHypothesis =>
    have found := tracks.find?_isReady
    rw [first] at found
    obtain ⟨order, left⟩ := inductionHypothesis (tracks.turn distinct counts first)
    rw [drain_of_cons first, settle_of_some found, List.eraseP_map, isReady_comp_entryAt]
    exact ⟨congrArg (entryAt decls next :: ·) order, left⟩

end Queue

/-- Taking declarations out of their slots, each once, gives the declarations. -/
theorem takeSlots_eq {slots : Vector (Option ConstDecl) decls.length}
    {order : List (Fin decls.length)} (distinct : order.Nodup)
    (full : ∀ place ∈ order, slots.get place = some (decls.get place)) :
    takeSlots slots order = order.map decls.get := by
  induction order generalizing slots with
  | nil => rfl
  | cons place rest inductionHypothesis =>
    rw [List.nodup_cons] at distinct
    rw [List.forall_mem_cons] at full
    have others : takeSlots (slots.set place none) rest = rest.map decls.get := by
      refine inductionHypothesis distinct.2 fun other member => ?_
      have apart : place ≠ other := fun same => distinct.1 (same ▸ member)
      rw [get_set, if_neg apart]
      exact full.2 other member
    simp only [takeSlots, full.1, others, List.map_cons]

/-- The declarations with their places are those at the places. -/
theorem map_entryAt_finRange (decls : List ConstDecl) :
    (List.finRange decls.length).map (entryAt decls) = decls.zipIdx := by
  refine List.ext_getElem (by simp) fun index _ _ => ?_
  simp [entryAt]

theorem map_fst_uses (decls : List ConstDecl) :
    (uses decls).map Prod.fst = decls.flatMap (·.value.references) := by
  have each : decls.flatMap (·.value.references) =
      ((List.finRange decls.length).map decls.get).flatMap (·.value.references) := by
    rw [List.map_get_finRange]
  rw [each, uses, List.map_flatMap, List.flatMap_map]
  simp [Function.comp_def]

theorem countP_flatMap_map_pair {α β : Type} [DecidableEq β] {rows : β → List α} {places : List β}
    (distinct : places.Nodup) (place : β) (counted : α → Bool) :
    (places.flatMap fun other => (rows other).map (·, other)).countP
        (fun use => use.2 == place && counted use.1) =
      if place ∈ places then (rows place).countP counted else 0 := by
  induction places with
  | nil => rfl
  | cons first rest inductionHypothesis =>
    rw [List.nodup_cons] at distinct
    rw [List.flatMap_cons, List.countP_append, inductionHypothesis distinct.2, List.countP_map]
    by_cases same : first = place
    · simp [same, Function.comp_def, same ▸ distinct.1]
    · simp [same, Function.comp_def, Ne.symm same]

/-- The references at a place are those of its declaration. -/
theorem countP_uses (place : Fin decls.length) (counted : String × Span → Bool) :
    (uses decls).countP (fun use => use.2 == place && counted use.1) =
      (decls.get place).value.references.countP counted := by
  rw [uses, countP_flatMap_map_pair (List.nodup_finRange _), if_pos (List.mem_finRange place)]

section Built

variable {index : IndexMap String (Fin decls.length)}
  (places : ∀ name place, index.get? name = some place ↔ (decls.get place).name = name)

include places

theorem isSome_get?_iff {name : String} :
    (index.get? name).isSome = true ↔
      ∃ place : Fin decls.length, (decls.get place).name = name := by
  rw [Option.isSome_iff_exists]
  exact exists_congr (places name)

/-- The index and the scope around the list have the names that are declared. -/
theorem isDeclared_eq (outer : Option Scope) (name : String) :
    isDeclared decls outer name = ((index.get? name).isSome || outer.any (·.contains name)) := by
  refine congrArg (· || _) (Bool.eq_iff_iff.mpr ?_)
  rw [isSome_get?_iff places, List.any_eq_true, List.exists_mem_iff_getElem]
  simp [Fin.exists_iff]

/-- The first reference that stops the reading of the graph is the first that is declared
nowhere. -/
theorem find?_uses (outer : Option Scope) :
    ((uses decls).find? fun use =>
        (index.get? use.1.1).isNone && !outer.any (·.contains use.1.1)).map Prod.fst =
      firstUndefined? decls outer := by
  rw [firstUndefined?, ← map_fst_uses, List.find?_map]
  refine congrArg (fun search => ((uses decls).find? search).map Prod.fst) (funext fun use => ?_)
  rw [Function.comp, isDeclared_eq places, Bool.not_or, Option.not_isSome]

namespace Graph.Counts

variable {graph : Graph decls.length}

theorem count_dependents (counts : graph.Counts index (uses decls))
    (target place : Fin decls.length) :
    (graph.dependents.get target).count place = usesOf decls target place := by
  rw [counts.dependents, countP_uses place fun reference => index.get? reference.1 == some target,
    usesOf]
  refine List.countP_congr fun reference _ => ?_
  rw [beq_iff_eq, beq_iff_eq, places]

/-- The loop starts with all places waiting. -/
theorem tracks (counts : graph.Counts index (uses decls)) :
    Queue.Tracks decls (List.finRange decls.length)
      (.start graph.degrees) := by
  have degrees (place : Fin decls.length) :
      graph.degrees.get place = degree decls (List.finRange decls.length) place := by
    rw [counts.degrees, countP_uses place fun reference => (index.get? reference.1).isSome, degree]
    refine List.countP_congr fun reference _ => ?_
    rw [isSome_get?_iff places, List.any_eq_true]
    simp [List.mem_finRange]
  exact ⟨List.pairwise_lt_finRange _, degrees, List.filter_congr fun place _ => by rw [degrees],
    fun place gone => absurd (List.mem_finRange place) gone⟩

end Graph.Counts

end Built

/-- What is left of a list is put in order or reported. -/
theorem arrange_eq {order : List (Fin decls.length)} {degrees : Vector Nat decls.length}
    {all : List Placed × List Placed} (parts : (all.1 ++ all.2).Perm decls.zipIdx)
    (front : order.map (entryAt decls) = all.1)
    (left : (stuck degrees).map (entryAt decls) = all.2) :
    arrange decls order degrees =
      if all.2 = [] then .ok all.1 else .error (.cyclicConst (all.2.map (·.1.name))) := by
  have total := parts.length_eq
  rw [List.length_append, ← front, List.length_map, List.length_zipIdx] at total
  unfold arrange
  split
  · next fewer =>
    have rest : all.2 ≠ [] := fun none => by simp [none] at total; omega
    rw [if_neg rest, ← left, List.map_map]
    rfl
  · next enough =>
    have done : all.2 = [] := List.length_eq_zero_iff.mp (by omega)
    have distinct : order.Nodup := by
      have once := (parts.map Prod.snd).nodup_iff.mpr (by simp [List.nodup_range'])
      rw [done, List.append_nil, ← front, List.map_map] at once
      exact once.of_map
    have taken : takeSlots ⟨(decls.map some).toArray, by simp⟩ order = order.map decls.get :=
      takeSlots_eq distinct fun place _ => by simp [Vector.get]
    rw [if_pos done, ← front]
    refine congrArg Except.ok ?_
    rw [taken, List.zip_map']
    rfl

end Loop

end ConstOrder

open ConstOrder

/-- The loop over the queue answers what settling the list does. -/
theorem sortConsts_eq_settled (decls : List ConstDecl) (outer : Option Scope) :
    sortConsts decls outer = settled decls outer := by
  unfold sortConsts settled
  cases repeated : firstRepeated? [] decls with
  | some decl =>
    have stop : indexNames .empty (placed decls) =
        .error (.duplicateConst decl.name decl.span.start) :=
      indexNames_of_repeated (fun _ => rfl) ((map_fst_placed decls).symm ▸ repeated)
    rw [stop]
    rfl
  | none =>
    obtain ⟨distinct, _⟩ := firstRepeated?_eq_none.mp repeated
    obtain ⟨index, indexed, places⟩ := indexNames_decls distinct
    have search := find?_uses places outer
    rw [indexed]
    cases undefined : firstUndefined? decls outer with
    | some reference =>
      rw [undefined, Option.map_eq_some_iff] at search
      obtain ⟨use, found, rfl⟩ := search
      show (Graph.read index outer .empty (uses decls)).bind _ = _
      rw [Graph.read_of_undefined found]
      rfl
    | none =>
      rw [undefined, Option.map_eq_none_iff, List.find?_eq_none] at search
      have declared : ∀ use ∈ uses decls,
          (index.get? use.1.1).isSome = true ∨ outer.any (·.contains use.1.1) = true := by
        intro use member
        have passed := search use member
        rwa [Bool.and_eq_true, not_and_or, Bool.not_eq_true, Option.isNone_eq_false_iff,
          Bool.not_eq_true', Bool.not_eq_false] at passed
      obtain ⟨graph, read, counts⟩ := Graph.read_of_declared Graph.counts_empty declared
      obtain ⟨order, left⟩ := (counts.tracks places).drain distinct (counts.count_dependents places)
      rw [map_entryAt_finRange] at order left
      show (Graph.read index outer .empty (uses decls)).bind _ = _
      rw [read]
      refine (arrange_eq (settle_perm _) order left).trans ?_
      rcases settle decls.zipIdx with ⟨front, _ | ⟨entry, stuck⟩⟩
      · rfl
      · rfl

end BehaviourScript
