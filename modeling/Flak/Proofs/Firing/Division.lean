import Flak.Proofs.Board.Census
import Flak.Proofs.Board.Reach
import Flak.Proofs.Fire.Planning
import Mathlib.Data.List.Nodup
import Mathlib.Data.List.Perm.Basic

namespace Flak

/-!
# How guns are divided into groups

Guns fire together if they have the same key: their kind of anti-air and, if they are spent on a hit,
their type. Each key that occurs makes one group, in an order that only the declared types decide:

* `FiringKey`, `Board.firingKey?`, `Board.groupKey` — the key of a gun, and that of a group;
* `Board.FiresBefore` — kinds that are declared later come first; of one kind the types that are spent
  come in the order of their declaration, and all others behind them;
* `Board.firingKeys`, `Board.pairwise_firingKeys`, `Board.mem_firingKeys` — the keys of some guns;
* `Board.map_muster` — the groups of a muster are those of the keys of its guns;
* `Board.Divided`, `Board.muster_divided` — so that each gun fires in one group, in order;
* `Battery` — a battery of four keys.
-/

/-- What guns have in common that fire together: the kind of their anti-air and, if they are spent on
    a hit, their type. -/
structure FiringKey where
  kind : String
  spentType : Option String
  deriving DecidableEq

namespace Board

variable {board : Board} {gun : UnitId} {guns : List UnitId} {key : FiringKey} {kind name : String}
  {slot : Option String} {muster : Muster} {group : FiringGroup}

/-- The `FiringKey` of a gun, none for a unit without anti-air. -/
def firingKey? (board : Board) (gun : UnitId) : Option FiringKey :=
  match board.unitWithType gun with
  | .ok (unit, type) =>
      type.aa.map fun aa => ⟨aa.kind, if aa.suicideOnHit then some unit.typeName else none⟩
  | .error _ => none

/-- What it takes that `firingKey?` is a certain key. -/
theorem firingKey?_eq_some :
    board.firingKey? gun = some key ↔ ∃ unit type aa, board.unit? gun = some unit ∧
      board.unitType? unit.typeName = some type ∧ type.aa = some aa ∧ aa.kind = key.kind ∧
        (if aa.suicideOnHit then some unit.typeName else none) = key.spentType := by
  unfold firingKey?
  constructor
  · intro h
    cases hfound : board.unitWithType gun with
    | error fault => simp [hfound] at h
    | ok entry =>
      obtain ⟨unit, type⟩ := entry
      obtain ⟨hunit, htype⟩ := unitWithType_eq_ok.1 hfound
      simp only [hfound, Option.map_eq_some_iff] at h
      obtain ⟨aa, haa, rfl⟩ := h
      exact ⟨unit, type, aa, hunit, htype, haa, rfl, rfl⟩
  · rintro ⟨unit, type, aa, hunit, htype, haa, hkind, hspent⟩
    rw [unitWithType_eq_ok.2 ⟨hunit, htype⟩]
    simp only [haa, Option.map_some, hkind, hspent]

/-- Just the units with anti-air have a `firingKey?`. -/
theorem isSome_firingKey? : (board.firingKey? gun).isSome = (board.ability? gun).isSome := by
  unfold firingKey? ability?
  cases board.unitWithType gun with
  | error fault => rfl
  | ok entry => exact Option.isSome_map

/-- A gun with a `key` is spent on a hit just if the key names a type. -/
theorem suicideOnHit_of_firingKey? {aa : AntiAir} (hkey : board.firingKey? gun = some key)
    (hability : board.ability? gun = some aa) : aa.suicideOnHit = key.spentType.isSome := by
  obtain ⟨unit, type, own, hunit, htype, haa, -, hspent⟩ := firingKey?_eq_some.1 hkey
  have hown : board.ability? gun = some own := ability?_eq_some.2 ⟨unit, type, hunit, htype, haa⟩
  obtain rfl := Option.some.inj (hown.symm.trans hability)
  rw [← hspent]
  cases own.suicideOnHit <;> rfl

/-- Guns whose `key` names a type have the ability that it declares. -/
theorem ability?_of_spentType (hkey : board.firingKey? gun = some key)
    (hspent : key.spentType = some name) :
    board.ability? gun = (board.unitType? name).bind UnitType.aa := by
  obtain ⟨unit, type, aa, hunit, htype, haa, -, hname⟩ := firingKey?_eq_some.1 hkey
  obtain rfl := Option.some.inj (Option.ite_none_right_eq_some.1 (hname.trans hspent)).2
  rw [ability?_eq_some.2 ⟨unit, type, hunit, htype, haa⟩, htype]
  exact haa.symm

/-- Those of the `guns` that have the `key`, in their order. -/
def members (board : Board) (key : FiringKey) (guns : List UnitId) : List UnitId :=
  guns.filter fun gun => board.firingKey? gun = some key

/-- The `members` of a key are the guns that have it. -/
theorem mem_members : gun ∈ board.members key guns ↔ gun ∈ guns ∧ board.firingKey? gun = some key := by
  simp [members]

/-- Where the `guns` of one key are taken out, the `members` of another stay. -/
theorem members_filter_of_ne {other : FiringKey} (h : other ≠ key) :
    board.members other (guns.filter fun gun => !decide (board.firingKey? gun = some key)) =
      board.members other guns := by
  rw [members, members, List.filter_filter]
  refine List.filter_congr fun gun _ => ?_
  by_cases hother : board.firingKey? gun = some other
  · simp [hother, h]
  · simp [hother]

/-- The key of the `group`; the type that is spent is that of its first unit. -/
def groupKey (board : Board) (group : FiringGroup) : FiringKey :=
  ⟨group.kind, if group.suicideOnHit then
    (group.firingUnits.head?.bind board.unit?).map BoardUnit.typeName else none⟩

/-! ### The order of keys -/

/-- The place of a type that is spent in the order of declaration on the `board`; no type comes
    behind them all. -/
def spentRank (board : Board) : Option String → Nat
  | some name => (board.unitTypes.map UnitType.name).idxOf name
  | none => board.unitTypes.length

/-- A kind that is declared later on the `board` fires first. Of one kind the types that are spent
    fire in the order of their declaration, and then all others. -/
def FiresBefore (board : Board) (a b : FiringKey) : Prop :=
  board.declarationRank b.kind < board.declarationRank a.kind ∨
    a.kind = b.kind ∧ board.spentRank a.spentType < board.spentRank b.spentType

instance (board : Board) (a b : FiringKey) : Decidable (board.FiresBefore a b) :=
  inferInstanceAs (Decidable (_ ∨ _ ∧ _))

/-- Of two keys one at most `FiresBefore` the other. -/
theorem FiresBefore.asymm {a b : FiringKey} (h : board.FiresBefore a b) :
    ¬ board.FiresBefore b a := by
  unfold FiresBefore at *
  rintro (hlater | ⟨hkind, hlater⟩)
  · rcases h with hkinds | ⟨hkind, -⟩
    · omega
    · rw [hkind] at hlater
      omega
  · rcases h with hkinds | ⟨-, hspent⟩
    · rw [hkind] at hkinds
      omega
    · omega

/-- No key `FiresBefore` itself. -/
theorem FiresBefore.ne {a b : FiringKey} (h : board.FiresBefore a b) : a ≠ b := by
  rintro rfl
  exact h.asymm h

/-- The types of the `board` that are spent on a hit, in the order of declaration, and then none. -/
def spentSlots (board : Board) : List (Option String) :=
  (board.unitTypes.filter fun type => type.aa.any AntiAir.suicideOnHit).map (some ·.name) ++ [none]

/-- The keys of the `guns`, in firing order. -/
def firingKeys (board : Board) (guns : List UnitId) : List FiringKey :=
  (board.kindsInFiringOrder guns).flatMap fun kind =>
    (board.spentSlots.map (FiringKey.mk kind)).filter fun key => !(board.members key guns).isEmpty

/-! ### Kinds -/

/-- The `kindsInFiringOrder` are the kinds of the guns. -/
theorem mem_kindsInFiringOrder :
    kind ∈ board.kindsInFiringOrder guns ↔ ∃ gun ∈ guns, ∃ aa, board.ability? gun = some aa ∧
      aa.kind = kind := by
  simp [kindsInFiringOrder, List.mem_eraseDups]

/-- The `kind` of a unit's anti-air is declared by its type. -/
theorem exists_declared (h : kind ∈ board.kindsInFiringOrder guns) :
    ∃ type ∈ board.unitTypes, type.aa.any fun aa => aa.kind = kind := by
  obtain ⟨gun, -, aa, hability, hkind⟩ := mem_kindsInFiringOrder.1 h
  obtain ⟨unit, type, -, htype, haa⟩ := ability?_eq_some.1 hability
  exact ⟨type, List.mem_of_find?_eq_some htype, by simp [haa, hkind]⟩

/-- Kinds that are declared have different ranks, by `declarationRank`. -/
theorem declarationRank_injOn {other : String} (hkind : kind ∈ board.kindsInFiringOrder guns)
    (hother : other ∈ board.kindsInFiringOrder guns)
    (h : board.declarationRank kind = board.declarationRank other) : kind = other := by
  -- The rank is the position of the first type that declares the kind.
  have hindex (kind : String) (hkind : kind ∈ board.kindsInFiringOrder guns) :
      ∃ hlt : board.declarationRank kind < board.unitTypes.length,
        board.unitTypes[board.declarationRank kind].aa.any fun aa => aa.kind = kind := by
    obtain ⟨type, htype, hdeclares⟩ := exists_declared hkind
    cases hfound : board.declarationIndex? kind with
    | none =>
      have hnone := List.findIdx?_eq_none_iff.1 hfound type htype
      simp [hnone] at hdeclares
    | some index =>
      obtain ⟨hlt, hdeclared, -⟩ := List.findIdx?_eq_some_iff_getElem.1 hfound
      have hrank : board.declarationRank kind = index := by simp [declarationRank, hfound]
      subst hrank
      exact ⟨hlt, hdeclared⟩
  obtain ⟨hlt, hdeclared⟩ := hindex kind hkind
  obtain ⟨hlt', hdeclared'⟩ := hindex other hother
  simp only [← h, Option.any_eq_true, decide_eq_true_eq] at hdeclared hdeclared'
  obtain ⟨aa, haa, rfl⟩ := hdeclared
  obtain ⟨aa', haa', rfl⟩ := hdeclared'
  rw [Option.some.inj (haa.symm.trans haa')]

/-- The `kindsInFiringOrder` are in the opposite order of their declaration. -/
theorem pairwise_kindsInFiringOrder (board : Board) (guns : List UnitId) :
    (board.kindsInFiringOrder guns).Pairwise fun a b =>
      board.declarationRank b < board.declarationRank a := by
  have hmem {kind : String} (h : kind ∈ (board.kindsInFiringOrder guns).reverse) :
      kind ∈ board.kindsInFiringOrder guns := List.mem_reverse.1 h
  rw [← List.reverse_reverse (board.kindsInFiringOrder guns), List.pairwise_reverse]
  -- Sorting gives the order of declaration, and no two different kinds have the same rank.
  have hsorted : (board.kindsInFiringOrder guns).reverse.Pairwise fun a b =>
      board.declarationRank a ≤ board.declarationRank b := by
    rw [kindsInFiringOrder, List.reverse_reverse]
    refine (List.pairwise_mergeSort ?_ ?_ _).imp fun h => of_decide_eq_true h
    · intro a b c hab hbc
      simp only [decide_eq_true_eq] at *
      omega
    · intro a b
      simp only [Bool.or_eq_true, decide_eq_true_eq]
      omega
  have hnodup : (board.kindsInFiringOrder guns).reverse.Nodup := by
    rw [kindsInFiringOrder, List.reverse_reverse]
    exact (List.mergeSort_perm _ _).nodup_iff.2 (nodup_eraseDups _)
  refine (hsorted.and hnodup).imp_of_mem fun ha hb h => ?_
  exact Nat.lt_of_le_of_ne h.1 fun hrank => h.2 (declarationRank_injOn (hmem ha) (hmem hb) hrank)

/-! ### Types that are spent -/

section DistinctNames

variable (hnames : (board.unitTypes.map UnitType.name).Nodup)

include hnames

/-- Among types of different names each is found by its name, by `unitType?`. -/
theorem unitType?_of_mem {type : UnitType} (h : type ∈ board.unitTypes) :
    board.unitType? type.name = some type := by
  cases hfound : board.unitType? type.name with
  | none =>
    have hnone := List.find?_eq_none.1 hfound type h
    simp at hnone
  | some found =>
    have hname : found.name = type.name := by simpa using List.find?_some hfound
    rw [List.inj_on_of_nodup_map hnames (List.mem_of_find?_eq_some hfound) h hname]

/-- The `spentSlots` come in the order of their declaration, and none comes last. -/
theorem pairwise_spentSlots :
    board.spentSlots.Pairwise fun a b => board.spentRank a < board.spentRank b := by
  have hlt {name : String} (h : name ∈ board.unitTypes.map UnitType.name) :
      board.spentRank (some name) < board.unitTypes.length := by
    simpa [spentRank] using List.idxOf_lt_length_of_mem h
  -- Types of different names are found at their own positions.
  have hdeclared : board.unitTypes.Pairwise fun a b =>
      board.spentRank (some a.name) < board.spentRank (some b.name) := by
    rw [List.pairwise_iff_getElem]
    intro i j hi hj hij
    have hrank (k : Nat) (hk : k < board.unitTypes.length) :
        board.spentRank (some board.unitTypes[k].name) = k := by
      have hget := hnames.idxOf_getElem k (by simpa using hk)
      simpa [spentRank] using hget
    rw [hrank i hi, hrank j hj]
    exact hij
  rw [spentSlots, List.pairwise_append]
  refine ⟨List.pairwise_map.2 (hdeclared.sublist List.filter_sublist), List.pairwise_singleton _ _,
    ?_⟩
  intro slot hslot last hlast
  obtain ⟨type, htype, rfl⟩ := List.mem_map.1 hslot
  obtain rfl := List.mem_singleton.1 hlast
  exact hlt (List.mem_map_of_mem (List.mem_filter.1 htype).1)

/-- The `firingKeys` come in firing order. -/
theorem pairwise_firingKeys (guns : List UnitId) :
    (board.firingKeys guns).Pairwise board.FiresBefore := by
  rw [firingKeys, List.pairwise_flatMap]
  constructor
  · intro kind _
    apply List.Pairwise.sublist List.filter_sublist
    rw [List.pairwise_map]
    exact (pairwise_spentSlots hnames).imp fun h => .inr ⟨rfl, h⟩
  · refine (pairwise_kindsInFiringOrder board guns).imp fun h => ?_
    intro key hkey other hother
    obtain ⟨slot, -, rfl⟩ := List.mem_map.1 (List.mem_filter.1 hkey).1
    obtain ⟨slot', -, rfl⟩ := List.mem_map.1 (List.mem_filter.1 hother).1
    exact .inl h

/-- The `firingKeys` are different. -/
theorem nodup_firingKeys (guns : List UnitId) : (board.firingKeys guns).Nodup :=
  (pairwise_firingKeys hnames guns).imp FiresBefore.ne

omit hnames in
/-- The `firingKeys` are those of the `guns`. -/
theorem mem_firingKeys : key ∈ board.firingKeys guns ↔ ∃ gun ∈ guns, board.firingKey? gun = some key := by
  unfold firingKeys
  constructor
  · intro h
    obtain ⟨kind, -, hkey⟩ := List.mem_flatMap.1 h
    obtain ⟨gun, hgun⟩ := List.exists_mem_of_ne_nil _ (by simpa using (List.mem_filter.1 hkey).2)
    exact ⟨gun, mem_members.1 hgun⟩
  · rintro ⟨gun, hgun, hkey⟩
    obtain ⟨unit, type, aa, hunit, htype, haa, hkind, hspent⟩ := firingKey?_eq_some.1 hkey
    have hability : board.ability? gun = some aa :=
      ability?_eq_some.2 ⟨unit, type, hunit, htype, haa⟩
    -- The guns of the key are in the slot of the type that they spend, or in the last one.
    have hslot : key.spentType ∈ board.spentSlots := by
      rw [← hspent, spentSlots, List.mem_append]
      split
      · rename_i hsuicide
        have hname : type.name = unit.typeName := by simpa using List.find?_some htype
        exact .inl (List.mem_map.2 ⟨type, List.mem_filter.2
          ⟨List.mem_of_find?_eq_some htype, by simp [haa, hsuicide]⟩, by rw [hname]⟩)
      · exact .inr (List.mem_singleton.2 rfl)
    refine List.mem_flatMap.2
      ⟨key.kind, mem_kindsInFiringOrder.2 ⟨gun, hgun, aa, hability, hkind⟩, ?_⟩
    refine List.mem_filter.2 ⟨List.mem_map.2 ⟨key.spentType, hslot, rfl⟩, ?_⟩
    simpa using List.ne_nil_of_mem (mem_members.2 ⟨hgun, hkey⟩)

/-- The `firingKeys` are determined by what they are and by their order. -/
theorem firingKeys_eq_of_pairwise {keys : List FiringKey} (hturn : keys.Pairwise board.FiresBefore)
    (hmem : ∀ key, key ∈ keys ↔ ∃ gun ∈ guns, board.firingKey? gun = some key) :
    board.firingKeys guns = keys := by
  refine List.Perm.eq_of_pairwise ?_ (pairwise_firingKeys hnames guns) hturn ?_
  · intro a b _ _ hab hba
    exact absurd hba hab.asymm
  · refine (List.perm_ext_iff_of_nodup (nodup_firingKeys hnames guns) (hturn.imp FiresBefore.ne)).2 ?_
    intro key
    rw [mem_firingKeys, hmem]

/-- The `firingKeys` do not depend on the order of the `guns`. -/
theorem firingKeys_perm {others : List UnitId} (h : others.Perm guns) :
    board.firingKeys others = board.firingKeys guns := by
  refine firingKeys_eq_of_pairwise hnames (pairwise_firingKeys hnames guns) fun key => ?_
  simp only [mem_firingKeys, h.mem_iff]

/-! ### Groups of keys -/

/-- Of the `guns` of a `kind` those of a type that is spent are the `members` of one key. -/
theorem ofType_ofKind {type : UnitType} (htype : type ∈ board.unitTypes)
    (hsuicide : type.aa.any AntiAir.suicideOnHit = true) :
    board.ofType type.name (board.ofKind kind guns) = board.members ⟨kind, some type.name⟩ guns := by
  rw [ofType, ofKind, List.filter_filter, members]
  refine List.filter_congr fun gun _ => ?_
  rw [Bool.eq_iff_iff, Bool.and_eq_true, decide_eq_true_eq, firingKey?_eq_some]
  simp only [Option.any_eq_true, decide_eq_true_eq, ability?_eq_some] at hsuicide ⊢
  constructor
  · rintro ⟨⟨unit, hunit, hname⟩, aa, ⟨unit', type', hunit', htype', haa⟩, hkind⟩
    obtain rfl := Option.some.inj (hunit.symm.trans hunit')
    -- The only type of this name is the one that is spent.
    rw [hname, unitType?_of_mem hnames htype] at htype'
    obtain rfl := Option.some.inj htype'
    obtain ⟨aa', haa', hsuicidal⟩ := hsuicide
    obtain rfl := Option.some.inj (haa.symm.trans haa')
    exact ⟨unit, type, aa, hunit, by rw [hname, unitType?_of_mem hnames htype], haa, hkind,
      by rw [if_pos hsuicidal, hname]⟩
  · rintro ⟨unit, type', aa, hunit, htype', haa, hkind, hspent⟩
    have hname := Option.some.inj (Option.ite_none_right_eq_some.1 hspent).2
    exact ⟨⟨unit, hunit, hname⟩, aa, ⟨unit, type', hunit, htype', haa⟩, hkind⟩

omit hnames in
/-- Of the `guns` of a `kind` those that are not spent are the `members` of one key. -/
theorem filter_not_isSuicidal_ofKind (kind : String) (guns : List UnitId) :
    (board.ofKind kind guns).filter (fun gun => !board.isSuicidal gun) =
      board.members ⟨kind, none⟩ guns := by
  rw [ofKind, List.filter_filter, members]
  refine List.filter_congr fun gun _ => ?_
  rw [Bool.eq_iff_iff, Bool.and_eq_true, decide_eq_true_eq, firingKey?_eq_some]
  constructor
  · rintro ⟨hplain, hkind⟩
    simp only [Option.any_eq_true, decide_eq_true_eq] at hkind
    obtain ⟨aa, hability, hkind⟩ := hkind
    obtain ⟨unit, type, hunit, htype, haa⟩ := ability?_eq_some.1 hability
    have hnotSpent : aa.suicideOnHit = false := by simpa [isSuicidal, hability] using hplain
    exact ⟨unit, type, aa, hunit, htype, haa, hkind, by simp [hnotSpent]⟩
  · rintro ⟨unit, type, aa, hunit, htype, haa, hkind, hspent⟩
    have hability : board.ability? gun = some aa :=
      ability?_eq_some.2 ⟨unit, type, hunit, htype, haa⟩
    have hnotSpent : aa.suicideOnHit = false := by simpa using hspent
    simpa [isSuicidal, hability, hkind] using hnotSpent

/-- The `suicideParts` of the guns of a `kind` are the members of its keys. -/
theorem suicideParts_ofKind (kind : String) (guns : List UnitId) :
    board.suicideParts (board.ofKind kind guns) =
      (board.spentSlots.map fun slot => board.members ⟨kind, slot⟩ guns).filter (!·.isEmpty) := by
  rw [suicideParts, spentSlots, filter_not_isSuicidal_ofKind, List.map_append, List.map_map]
  congr 2
  refine List.map_congr_left fun type htype => ?_
  obtain ⟨hmem, hsuicide⟩ := List.mem_filter.1 htype
  exact ofType_ofKind hnames hmem hsuicide

omit hnames in
/-- The `members` of a key make the group of that key. -/
theorem exists_groupOf? (muster : Muster) (h : board.members key guns ≠ []) :
    ∃ group, board.groupOf? muster key.kind (board.members key guns) = some group ∧
      board.groupKey group = key ∧ group.firingUnits = board.members key guns := by
  obtain ⟨first, rest, hmembers⟩ := List.exists_cons_of_ne_nil h
  have hfirst : first ∈ board.members key guns := by rw [hmembers]; exact List.mem_cons_self
  obtain ⟨unit, type, aa, hunit, htype, haa, -, hspent⟩ :=
    firingKey?_eq_some.1 (mem_members.1 hfirst).2
  have hability : board.ability? first = some aa :=
    ability?_eq_some.2 ⟨unit, type, hunit, htype, haa⟩
  rw [hmembers]
  refine ⟨_, by simp only [groupOf?, List.head?_cons, hability, Option.bind_eq_bind,
    Option.bind_some]; rfl, ?_, rfl⟩
  simp only [groupKey, List.head?_cons, Option.bind_some, hunit, Option.map_some, hspent]

/-- The groups of a `muster` are those of the keys of its guns. -/
theorem map_muster (muster : Muster) :
    (board.muster muster).map (fun group => (board.groupKey group, group.firingUnits)) =
      (board.firingKeys muster.aaUnits).map fun key => (key, board.members key muster.aaUnits) := by
  rw [Board.muster, firingKeys, List.map_flatMap, List.map_flatMap]
  congr 1
  funext kind
  rw [suicideParts_ofKind hnames]
  induction board.spentSlots with
  | nil => rfl
  | cons slot slots ih =>
    by_cases hempty : board.members ⟨kind, slot⟩ muster.aaUnits = []
    · simpa [hempty] using ih
    · obtain ⟨group, hgroup, hkey, hunits⟩ := exists_groupOf? muster hempty
      simpa [hempty, hgroup, hkey, hunits] using ih

/-! ### The division -/

omit hnames in
/-- The `members` of different `keys` are all guns that have a key, if theirs are among them. -/
theorem flatMap_members_perm {keys : List FiringKey} (hnodup : keys.Nodup) {guns : List UnitId}
    (hcovered : ∀ gun ∈ guns, ∀ key, board.firingKey? gun = some key → key ∈ keys) :
    (keys.flatMap fun key => board.members key guns).Perm
      (guns.filter fun gun => (board.firingKey? gun).isSome) := by
  induction keys generalizing guns with
  | nil =>
    have hnone : guns.filter (fun gun => (board.firingKey? gun).isSome) = [] := by
      refine List.filter_eq_nil_iff.2 fun gun hgun hsome => ?_
      obtain ⟨key, hkey⟩ := Option.isSome_iff_exists.1 hsome
      simpa using hcovered gun hgun key hkey
    rw [hnone]
    exact List.Perm.refl _
  | cons key keys ih =>
    obtain ⟨hnotMem, hrest⟩ := List.nodup_cons.1 hnodup
    -- The guns of the first key are apart from those that the other keys cover.
    let others := guns.filter fun gun => !decide (board.firingKey? gun = some key)
    have hothers : (keys.flatMap fun key => board.members key others).Perm
        (others.filter fun gun => (board.firingKey? gun).isSome) := by
      refine ih hrest fun gun hgun other hother => ?_
      obtain ⟨hmem, hne⟩ := List.mem_filter.1 hgun
      rcases List.mem_cons.1 (hcovered gun hmem other hother) with rfl | hlater
      · simp [hother] at hne
      · exact hlater
    have hsame : (keys.flatMap fun key => board.members key others) =
        keys.flatMap fun key => board.members key guns :=
      List.flatMap_congr fun other hother => members_filter_of_ne fun h => hnotMem (h ▸ hother)
    have hfirst : board.members key guns = (guns.filter fun gun =>
        (board.firingKey? gun).isSome).filter fun gun => board.firingKey? gun = some key := by
      rw [members, List.filter_filter]
      refine List.filter_congr fun gun _ => ?_
      cases board.firingKey? gun <;> simp
    have hlater : others.filter (fun gun => (board.firingKey? gun).isSome) =
        (guns.filter fun gun => (board.firingKey? gun).isSome).filter fun gun =>
          !decide (board.firingKey? gun = some key) := by
      rw [List.filter_filter, List.filter_filter]
      simp only [Bool.and_comm]
    rw [List.flatMap_cons, ← hsame]
    refine (List.Perm.append_left _ hothers).trans ?_
    rw [hfirst, hlater]
    exact List.filter_append_perm _ _

/-- The keys of the groups of a `muster` are those of the guns. -/
theorem map_groupKey_muster (muster : Muster) :
    (board.muster muster).map board.groupKey = board.firingKeys muster.aaUnits := by
  have hkeys := congrArg (List.map Prod.fst) (map_muster hnames muster)
  simpa [List.map_map, Function.comp_def] using hkeys

/-- A `group` has all guns of its key, as its `firingUnits`. -/
theorem firingUnits_of_mem_muster (h : group ∈ board.muster muster) :
    group.firingUnits = board.members (board.groupKey group) muster.aaUnits := by
  have hentry : (board.groupKey group, group.firingUnits) ∈
      (board.firingKeys muster.aaUnits).map fun key => (key, board.members key muster.aaUnits) := by
    rw [← map_muster hnames]
    exact List.mem_map_of_mem h
  obtain ⟨key, -, heq⟩ := List.mem_map.1 hentry
  obtain ⟨rfl, hunits⟩ := Prod.mk.inj heq
  exact hunits.symm

/-- The `firingUnits` of a group have its key. -/
theorem firingKey?_of_mem_muster (h : group ∈ board.muster muster) (hgun : gun ∈ group.firingUnits) :
    board.firingKey? gun = some (board.groupKey group) := by
  rw [firingUnits_of_mem_muster hnames h] at hgun
  exact (mem_members.1 hgun).2

/-- All `firingUnits` of a group are spent on a hit or none is. -/
theorem suicideOnHit_of_mem_muster (h : group ∈ board.muster muster) (hgun : gun ∈ group.firingUnits)
    {aa : AntiAir} (hability : board.ability? gun = some aa) :
    aa.suicideOnHit = group.suicideOnHit := by
  have hkey (gun : UnitId) (hgun : gun ∈ group.firingUnits) {aa : AntiAir}
      (hability : board.ability? gun = some aa) :
      aa.suicideOnHit = (board.groupKey group).spentType.isSome :=
    suicideOnHit_of_firingKey? (firingKey?_of_mem_muster hnames h hgun) hability
  rw [hkey gun hgun hability]
  obtain ⟨kind, members, first, aa', -, hhead, hability', rfl⟩ := exists_of_mem_muster h
  exact (hkey first (List.mem_of_head? hhead) hability').symm

end DistinctNames

/-- What makes `groups` a division of `guns`. -/
structure Divided (board : Board) (guns : List UnitId) (groups : List FiringGroup) : Prop where
  /-- Each unit with anti-air is in one group, as often as it is given. -/
  complete : (groups.flatMap FiringGroup.firingUnits).Perm
    (guns.filter fun gun => (board.ability? gun).isSome)
  inTurn : (groups.map board.groupKey).Pairwise board.FiresBefore
  inhabited : ∀ group ∈ groups, group.firingUnits ≠ []
  ordered : ∀ group ∈ groups, group.firingUnits.Sublist guns
  /-- The units of a group are of its kind, and all are spent on a hit or none is. If they are, they
      are of one type. -/
  alike : ∀ group ∈ groups, ∀ gun ∈ group.firingUnits, ∃ unit type aa,
    board.unit? gun = some unit ∧ board.unitType? unit.typeName = some type ∧ type.aa = some aa ∧
      aa.kind = group.kind ∧ aa.suicideOnHit = group.suicideOnHit ∧
        (group.suicideOnHit = true → (board.groupKey group).spentType = some unit.typeName)

/-- Where the types have different names, the `muster` divides its units with anti-air into groups,
    so that they are `Divided`, and the keys of the groups do not depend on the order of the
    units. -/
theorem muster_divided (hnames : (board.unitTypes.map UnitType.name).Nodup) (muster : Muster) :
    board.Divided muster.aaUnits (board.muster muster) ∧
      ∀ other : Muster, other.aaUnits.Perm muster.aaUnits →
        (board.muster other).map board.groupKey = (board.muster muster).map board.groupKey := by
  have hkeys := map_groupKey_muster hnames muster
  refine ⟨⟨?_, ?_, ?_, ?_, ?_⟩, ?_⟩
  -- Taken together, the groups fire with the members of all keys.
  · have hunits : (board.muster muster).flatMap FiringGroup.firingUnits =
        (board.firingKeys muster.aaUnits).flatMap fun key => board.members key muster.aaUnits := by
      rw [← hkeys, List.flatMap_map]
      exact List.flatMap_congr fun group hgroup => firingUnits_of_mem_muster hnames hgroup
    rw [hunits]
    simp only [← isSome_firingKey?]
    exact flatMap_members_perm (nodup_firingKeys hnames _) fun gun hgun key hkey =>
      mem_firingKeys.2 ⟨gun, hgun, hkey⟩
  · rw [hkeys]
    exact pairwise_firingKeys hnames _
  · intro group hgroup
    obtain ⟨kind, members, first, aa, -, hhead, -, rfl⟩ := exists_of_mem_muster hgroup
    exact List.ne_nil_of_mem (List.mem_of_head? hhead)
  · intro group hgroup
    rw [firingUnits_of_mem_muster hnames hgroup]
    exact List.filter_sublist
  · intro group hgroup gun hgun
    have hkey := firingKey?_of_mem_muster hnames hgroup hgun
    obtain ⟨unit, type, aa, hunit, htype, haa, hkind, hspent⟩ := firingKey?_eq_some.1 hkey
    have hsuicide : aa.suicideOnHit = group.suicideOnHit :=
      suicideOnHit_of_mem_muster hnames hgroup hgun
        (ability?_eq_some.2 ⟨unit, type, hunit, htype, haa⟩)
    refine ⟨unit, type, aa, hunit, htype, haa, hkind, hsuicide, fun h => ?_⟩
    rw [← hspent, if_pos (hsuicide.trans h)]
  · intro other hother
    rw [map_groupKey_muster hnames, hkeys]
    exact firingKeys_perm hnames hother

end Board

/-! ### A mixed battery -/

namespace Battery

/-- A `board` with guns and rockets of one kind of anti-air, a radar of another, and a truck without
    any. -/
def board : Board where
  unitTypes := [
    ⟨"Gun", 1, false, some ⟨"Flak", 1, none, -1, ["Bomber"], true, false⟩⟩,
    ⟨"Mine", 1, false, some ⟨"Flak", 1, none, -1, ["Bomber"], true, true⟩⟩,
    ⟨"Radar", 1, false, some ⟨"Beam", 1, none, -1, ["Bomber"], true, false⟩⟩,
    ⟨"Rocket", 1, false, some ⟨"Flak", 1, none, -1, ["Bomber"], true, true⟩⟩,
    ⟨"Truck", 1, false, none⟩]
  units := [
    ⟨⟨1⟩, "Gun", ⟨"Blues"⟩, 0, 0, false, none⟩,
    ⟨⟨2⟩, "Rocket", ⟨"Blues"⟩, 0, 0, false, none⟩,
    ⟨⟨3⟩, "Radar", ⟨"Blues"⟩, 0, 0, false, none⟩,
    ⟨⟨4⟩, "Truck", ⟨"Blues"⟩, 0, 0, false, none⟩,
    ⟨⟨5⟩, "Mine", ⟨"Blues"⟩, 0, 0, false, none⟩,
    ⟨⟨6⟩, "Gun", ⟨"Blues"⟩, 0, 0, false, none⟩]

/-- The units of the battery, with the `Truck` among them. -/
def guns : List UnitId := [⟨1⟩, ⟨2⟩, ⟨3⟩, ⟨4⟩, ⟨5⟩, ⟨6⟩]

/-- A `muster` of the battery. -/
def muster (guns : List UnitId) : Muster where
  territory := "Fort"
  aaUnits := guns
  candidates := []
  hitPlayer := ⟨"Reds"⟩
  firingPlayer := none
  airborneAllowed := true
  removal := .returnToHost

/-- Each type of the `board` has a name of its own. -/
theorem distinct_names : (board.unitTypes.map UnitType.name).Nodup := by decide

/-- The keys of the battery, in firing order. The radar was declared last; mines were declared
    before rockets. -/
def keys : List FiringKey :=
  [⟨"Beam", none⟩, ⟨"Flak", some "Mine"⟩, ⟨"Flak", some "Rocket"⟩, ⟨"Flak", none⟩]

/-- These are the `firingKeys` of the battery. -/
theorem firingKeys_eq : board.firingKeys guns = keys := by
  have hkeys : guns.filterMap board.firingKey? ⊆ keys ∧ keys ⊆ guns.filterMap board.firingKey? := by
    decide
  refine Board.firingKeys_eq_of_pairwise distinct_names (by decide) fun key => ?_
  rw [← List.mem_filterMap]
  exact ⟨fun h => hkeys.2 h, fun h => hkeys.1 h⟩

end Battery

namespace Board

/-- The `Battery` fires in the same order of keys whichever way its guns are listed. -/
theorem muster_divided_battery :
    Battery.board.Divided Battery.guns (Battery.board.muster (Battery.muster Battery.guns)) ∧
      (Battery.board.muster (Battery.muster Battery.guns.reverse)).map Battery.board.groupKey =
        Battery.keys := by
  obtain ⟨hdivided, hsame⟩ :=
    muster_divided Battery.distinct_names (Battery.muster Battery.guns)
  refine ⟨hdivided, ?_⟩
  rw [hsame (Battery.muster Battery.guns.reverse) (List.reverse_perm _),
    map_groupKey_muster Battery.distinct_names]
  exact Battery.firingKeys_eq

end Board

end Flak
