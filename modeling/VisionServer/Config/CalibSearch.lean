/-
This file decides when the lookups of calibrations find what their containers hold.
-/

import VisionServer.Config.CalibList
import VisionServer.Library.Tables

namespace VisionServer.Config
open Library Camera

section Repeated

variable (name : String) (sz : Size) (map : CalibList)

/-- The search succeeds exactly when some entry of the name has the size, and it finds a calibration of such an
entry. -/
structure Searches : Prop where
  complete : (findCalib name sz map).isSome ↔ HasCalib name sz map
  sound : ∀ cal, findCalib name sz map = some cal → ∃ set, (name, set) ∈ map ∧ (sz, cal) ∈ set

/-- The first entry of the name has the size when an entry of the name behind it has the size. -/
def FirstCovers : Prop :=
  ∀ before first after, map = before ++ (name, first) :: after → (∀ entry ∈ before, entry.1 ≠ name) →
    HasCalib name sz after → ∃ cal, (sz, cal) ∈ first

variable {name sz map}

theorem findCalib_eq_some_iff {cal : CalibMat × CalibMat} :
    findCalib name sz map = some cal ↔ ∃ first, map.lookup name = some first ∧ first.lookup sz = some cal := by
  unfold findCalib findSet CalibSet.findCalib
  rw [find?_map_eq_lookup]
  cases map.lookup name with
  | none => simp
  | some first => simp [find?_map_eq_lookup]

/-- The search succeeds when the first entry of the name has the size. -/
theorem findCalib_isSome_iff : (findCalib name sz map).isSome ↔
    ∃ first cal, map.lookup name = some first ∧ (sz, cal) ∈ first := by
  rw [Option.isSome_iff_exists]
  constructor
  · rintro ⟨cal, found⟩
    obtain ⟨first, named, sized⟩ := findCalib_eq_some_iff.mp found
    exact ⟨first, cal, named, lookup_mem sized⟩
  · rintro ⟨first, cal, named, member⟩
    obtain ⟨other, sized⟩ := exists_lookup_of_mem member
    exact ⟨other, findCalib_eq_some_iff.mpr ⟨first, named, sized⟩⟩

theorem findCalib_sound {cal : CalibMat × CalibMat} (found : findCalib name sz map = some cal) :
    ∃ set, (name, set) ∈ map ∧ (sz, cal) ∈ set := by
  obtain ⟨first, named, sized⟩ := findCalib_eq_some_iff.mp found
  exact ⟨first, lookup_mem named, lookup_mem sized⟩

/-- The search visits every entry of the name if and only if the sizes of the later entries are sizes of the
first one. -/
theorem searches_iff_firstCovers (name : String) (sz : Size) (map : CalibList) :
    Searches name sz map ↔ FirstCovers name sz map := by
  constructor
  · rintro ⟨complete, _⟩ before first after rfl others ⟨set, cal, later, member⟩
    have named : (before ++ (name, first) :: after).lookup name = some first := by
      refine List.lookup_eq_some_iff.mpr ⟨before, after, rfl, fun entry listed => ?_⟩
      exact bne_iff_ne.mpr (others entry listed).symm
    have somewhere : HasCalib name sz (before ++ (name, first) :: after) :=
      ⟨set, cal, List.mem_append_right _ (List.mem_cons_of_mem _ later), member⟩
    obtain ⟨other, found, again, sized⟩ := findCalib_isSome_iff.mp (complete.mpr somewhere)
    obtain rfl := Option.some.inj (named.symm.trans again)
    exact ⟨found, sized⟩
  · intro covers
    refine ⟨⟨fun found => ?_, fun somewhere => ?_⟩, fun cal found => findCalib_sound found⟩
    · obtain ⟨cal, found⟩ := Option.isSome_iff_exists.mp found
      obtain ⟨set, listed, member⟩ := findCalib_sound found
      exact ⟨set, cal, listed, member⟩
    · obtain ⟨set, cal, listed, member⟩ := somewhere
      obtain ⟨first, named⟩ := exists_lookup_of_mem listed
      obtain ⟨before, after, rfl, others⟩ := List.lookup_eq_some_iff.mp named
      have apart (entry : String × CalibSet) (early : entry ∈ before) : entry.1 ≠ name :=
        (bne_iff_ne.mp (others entry early)).symm
      have sized : ∃ cal, (sz, cal) ∈ first := by
        rcases List.mem_append.mp listed with early | here
        · exact absurd rfl (apart _ early)
        · rcases List.mem_cons.mp here with same | later
          · exact ⟨cal, (Prod.mk.inj same).2 ▸ member⟩
          · exact covers before first after rfl apart ⟨set, cal, later, member⟩
      obtain ⟨other, sized⟩ := sized
      exact findCalib_isSome_iff.mpr ⟨first, other, named, sized⟩

/-- The name has two sets, and only the second one has the size. -/
def splitSets : CalibList :=
  [("lifecam", [(⟨320, 240⟩, (⟨defaultMatrix, true⟩, ⟨defaultDistort, true⟩))]),
    ("lifecam", [(⟨640, 480⟩, (⟨defaultMatrix, true⟩, ⟨defaultDistort, true⟩))])]

/-- The search stops at the first set. -/
theorem splitSets_not_searches : ¬ Searches "lifecam" ⟨640, 480⟩ splitSets := by
  intro given
  have found := given.complete.mpr ⟨_, _, List.mem_cons_of_mem _ List.mem_cons_self, List.mem_cons_self⟩
  exact absurd found (by decide)

end Repeated

section Containers

/-- These are the templates that the traits of `CalProps` tell apart. -/
inductive Template where
  | vecMap
  | stringMap
  | map
  | multimap
  | unorderedMap
  | unorderedMultimap
  | other
deriving DecidableEq

def anySameTemplate (template : Template) (others : List Template) : Bool := others.contains template

/-- These are the traits that select a search. -/
structure CalProps where
  isWpiSmap : Bool
  isSeqSmap : Bool
  isAssocSmap : Bool
  isSeqCmap : Bool
  isAssocCmap : Bool

/-- A set is a map from sizes to calibrations. -/
structure CalibSet_ (Cal : Type) where
  cmap : Template
  entries : List (Size × Cal)

/-- The outer map has strings as its keys, or its keys have a type of their own. -/
inductive MapTemplates where
  | calibSMap (cmap smap : Template)
  | calibMat (cmap nmap : Template)
deriving DecidableEq

/-- A container of sets has its pairs in the order of their iteration. -/
structure CalibMap_ (Cal : Type) where
  templates : MapTemplates
  entries : List (String × CalibSet_ Cal)

def CalProps.ofSet (cmap : Template) : CalProps where
  isWpiSmap := false
  isSeqSmap := false
  isAssocSmap := false
  isSeqCmap := cmap = .vecMap
  isAssocCmap := anySameTemplate cmap [.map, .unorderedMap]

def CalProps.ofMap : MapTemplates → CalProps
  | .calibSMap cmap smap => {
      isWpiSmap := smap = .stringMap
      isSeqSmap := false
      isAssocSmap := false
      isSeqCmap := cmap = .vecMap
      isAssocCmap := anySameTemplate cmap [.map, .unorderedMap] }
  | .calibMat cmap nmap => {
      isWpiSmap := false
      isSeqSmap := nmap = .vecMap
      isAssocSmap := anySameTemplate nmap [.map, .multimap, .unorderedMap, .unorderedMultimap]
      isSeqCmap := cmap = .vecMap
      isAssocCmap := anySameTemplate cmap [.map, .multimap, .unorderedMap, .unorderedMultimap] }

variable {Cal : Type}

/-- The member `find` of a keyed container finds by the key. -/
def wpiFindSetImpl (name : String) (map : CalibMap_ Cal) : Option (CalibSet_ Cal) :=
  match map.entries.lookup name with
  | some set => some set
  | none => none

def seqFindSetImpl (name : String) (map : CalibMap_ Cal) : Option (CalibSet_ Cal) :=
  (map.entries.find? fun set => set.1 == name).map Prod.snd

/-- The search by the member `find` is a comment, and the null pointer is returned. -/
def assocFindSetImpl (_name : String) (_map : CalibMap_ Cal) : Option (CalibSet_ Cal) := none

def seqFindCalibImpl (sz : Size) (set : CalibSet_ Cal) : Option Cal :=
  (set.entries.find? fun calib => calib.1 == sz).map Prod.snd

def assocFindCalibImpl (sz : Size) (set : CalibSet_ Cal) : Option Cal :=
  match set.entries.lookup sz with
  | some calib => some calib
  | none => none

namespace CalibMap_

/-- This is `findSet`. -/
def findSet (name : String) (map : CalibMap_ Cal) : Option (CalibSet_ Cal) :=
  if (CalProps.ofMap map.templates).isWpiSmap then wpiFindSetImpl name map
  else if (CalProps.ofMap map.templates).isSeqSmap then seqFindSetImpl name map
  else if (CalProps.ofMap map.templates).isAssocSmap then assocFindSetImpl name map
  else none

end CalibMap_

/-- This is `findCalib` for a set. -/
def CalibSet_.findCalib (sz : Size) (set : CalibSet_ Cal) : Option Cal :=
  if (CalProps.ofSet set.cmap).isSeqCmap then seqFindCalibImpl sz set
  else if (CalProps.ofSet set.cmap).isAssocCmap then assocFindCalibImpl sz set
  else none

namespace CalibMap_

/-- This is `findCalib` for a map. -/
def findCalib (name : String) (sz : Size) (map : CalibMap_ Cal) : Option Cal :=
  match map.findSet name with
  | some set => set.findCalib sz
  | none => none

/-- The names are tried in turn. -/
def findAnyCalib (names : List String) (sz : Size) (map : CalibMap_ Cal) : Option Cal :=
  match names with
  | [] => none
  | n :: rest =>
      match map.findSet n with
      | some set =>
          match set.findCalib sz with
          | some cal => some cal
          | none => map.findAnyCalib rest sz
      | none => map.findAnyCalib rest sz

end CalibMap_

/-- A table has distinct names, and distinct sizes for each of them. -/
structure CalibTable (Cal : Type) where
  entries : List (String × List (Size × Cal))
  names : DistinctKeys entries
  sizes : ∀ entry ∈ entries, DistinctKeys entry.2

/-- Each set of the table is a vector of pairs. -/
def CalibTable.sets (table : CalibTable Cal) : List (String × CalibSet_ Cal) :=
  table.entries.map fun entry => (entry.1, ⟨.vecMap, entry.2⟩)

/-- One table is held by a list, by a string map and by a map of the standard library, in any order. -/
structure Representations (Cal : Type) where
  table : CalibTable Cal
  calibList : CalibMap_ Cal
  calibSMap : CalibMap_ Cal
  calibMat : CalibMap_ Cal
  listTemplates : calibList.templates = .calibMat .vecMap .vecMap
  smapTemplates : calibSMap.templates = .calibSMap .vecMap .stringMap
  matTemplates : calibMat.templates = .calibMat .vecMap .map
  listEntries : calibList.entries.Perm table.sets
  smapEntries : calibSMap.entries.Perm table.sets
  matEntries : calibMat.entries.Perm table.sets

namespace Representations

variable (r : Representations Cal)

/-- The first and the second map give the same answers. -/
def Agree (first second : CalibMap_ Cal) : Prop :=
  ∀ name, first.findSet name = second.findSet name ∧
    ∀ sz, first.findCalib name sz = second.findCalib name sz

/-- The answer for several names is the first answer for one of them. -/
def Ordered (map : CalibMap_ Cal) : Prop :=
  ∀ names sz, map.findAnyCalib names sz = names.findSome? fun name => map.findCalib name sz

/-- All representations give the same answers, and the names are tried in their order. -/
def Uniform : Prop :=
  Agree r.calibList r.calibSMap ∧ Agree r.calibList r.calibMat ∧
    Ordered r.calibList ∧ Ordered r.calibSMap ∧ Ordered r.calibMat

theorem sets_distinct : DistinctKeys r.table.sets := by
  unfold DistinctKeys CalibTable.sets
  rw [List.map_map]
  exact r.table.names

theorem calibList_findSet (name : String) : r.calibList.findSet name = r.table.sets.lookup name := by
  unfold CalibMap_.findSet
  rw [r.listTemplates]
  change seqFindSetImpl name r.calibList = _
  rw [seqFindSetImpl, find?_map_eq_lookup, lookup_perm r.sets_distinct r.listEntries]

theorem calibSMap_findSet (name : String) : r.calibSMap.findSet name = r.table.sets.lookup name := by
  unfold CalibMap_.findSet
  rw [r.smapTemplates]
  change wpiFindSetImpl name r.calibSMap = _
  rw [wpiFindSetImpl, lookup_perm r.sets_distinct r.smapEntries]
  cases r.table.sets.lookup name <;> rfl

/-- The map of the standard library is never searched. -/
theorem calibMat_findSet (name : String) : r.calibMat.findSet name = none := by
  unfold CalibMap_.findSet
  rw [r.matTemplates]
  rfl

/-- Maps with the same sets have the same calibrations. -/
theorem agree_of_findSet {first second : CalibMap_ Cal}
    (same : ∀ name, first.findSet name = second.findSet name) : Agree first second := by
  refine fun name => ⟨same name, fun sz => ?_⟩
  rw [CalibMap_.findCalib, CalibMap_.findCalib, same]

theorem ordered (map : CalibMap_ Cal) : Ordered map := by
  intro names sz
  induction names with
  | nil => rfl
  | cons name rest ih =>
      rw [CalibMap_.findAnyCalib, List.findSome?_cons, CalibMap_.findCalib]
      cases map.findSet name with
      | none => exact ih
      | some set =>
          cases found : set.findCalib sz with
          | none => simp only [found, ih]
          | some cal => simp only [found]

/-- The three representations give the same answers if and only if the table is empty. -/
theorem uniform_iff_empty : r.Uniform ↔ r.table.entries = [] := by
  constructor
  · rintro ⟨_, mat, _⟩
    have none (name : String) : r.table.sets.lookup name = none := by
      rw [← r.calibList_findSet, (mat name).1, r.calibMat_findSet]
    by_contra some
    obtain ⟨entry, member⟩ := List.exists_mem_of_ne_nil _ some
    have listed : (entry.1, ⟨.vecMap, entry.2⟩) ∈ r.table.sets := List.mem_map_of_mem member
    obtain ⟨set, found⟩ := exists_lookup_of_mem listed
    rw [none] at found
    cases found
  · intro empty
    have sets : r.table.sets = [] := by
      rw [CalibTable.sets, empty, List.map_nil]
    refine ⟨agree_of_findSet fun name => ?_, agree_of_findSet fun name => ?_, ordered _, ordered _, ordered _⟩
    · rw [r.calibList_findSet, r.calibSMap_findSet]
    · rw [r.calibList_findSet, r.calibMat_findSet, sets]
      rfl

end Representations

/-- One calibration is held by the three representations. -/
def oneCalibration : Representations Nat where
  table := ⟨[("lifecam", [(⟨640, 480⟩, 0)])], by decide, by decide⟩
  calibList := ⟨.calibMat .vecMap .vecMap, [("lifecam", ⟨.vecMap, [(⟨640, 480⟩, 0)]⟩)]⟩
  calibSMap := ⟨.calibSMap .vecMap .stringMap, [("lifecam", ⟨.vecMap, [(⟨640, 480⟩, 0)]⟩)]⟩
  calibMat := ⟨.calibMat .vecMap .map, [("lifecam", ⟨.vecMap, [(⟨640, 480⟩, 0)]⟩)]⟩
  listTemplates := rfl
  smapTemplates := rfl
  matTemplates := rfl
  listEntries := .rfl
  smapEntries := .rfl
  matEntries := .rfl

/-- The list finds the calibration and the map of the standard library does not. -/
theorem oneCalibration_not_uniform : ¬ oneCalibration.Uniform := by
  rintro ⟨_, mat, _⟩
  have same := (mat "lifecam").2 ⟨640, 480⟩
  exact absurd same (by decide)

end Containers

end VisionServer.Config
