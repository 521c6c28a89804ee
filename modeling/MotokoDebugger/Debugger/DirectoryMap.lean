import MotokoDebugger.Debugger.SourceMap
import MotokoDebugger.Lib.Replace

/-!
# The directory map

`set_directory_map` and `find_line_info` of `debugger/src/dwarf/mod.rs`. The hash map is the list of
its entries in one of the orders in which it may be iterated.

* `DwarfSourceMap.Reports`: what `find_line_info` may report, in some order of iteration.
* `Independent`: no mapping rewrites what another one reads or writes.
* `findLineInfo_order_independent`: what is reported does not depend on any order then.
-/

namespace MotokoDebugger

namespace Debugger

open Replace

/-! ## Mappings -/

/-- `HashMap::insert`: the value of a key is replaced, a new key may come to stand anywhere. -/
def insertMapping (old new : String) : List (String × String) → List (String × String)
  | [] => [(old, new)]
  | entry :: map => if entry.1 = old then (old, new) :: map else entry :: insertMapping old new map

namespace DwarfSourceMap

/-- `set_directory_map`. -/
def setDirectoryMap (map : DwarfSourceMap) (old new : String) : DwarfSourceMap :=
  { map with directoryMap := insertMapping old new map.directoryMap }

/-- The mappings are set, one after the other. -/
def setAll (map : DwarfSourceMap) (mappings : List (String × String)) : DwarfSourceMap :=
  mappings.foldl (fun map mapping => map.setDirectoryMap mapping.1 mapping.2) map

/-- The hash map is iterated in this order. -/
def iteratedIn (map : DwarfSourceMap) (order : List (String × String)) : DwarfSourceMap :=
  { map with directoryMap := order }

/-- What `find_line_info` may report. -/
def Reports (map : DwarfSourceMap) (offset : Nat) (lineInfo : Option LineInfo) : Prop :=
  ∃ order, order.Perm map.directoryMap ∧ (map.iteratedIn order).findLineInfo offset = lineInfo

end DwarfSourceMap

/-- The mapping changes the paths in which its source occurs. -/
def Rewrites (path : String) (mapping : String × String) : Prop :=
  mapping.1 ≠ mapping.2 ∧ mapping.1.toList <:+: path.toList

/-- The source of a mapping that rewrites the path overlaps the source of no other one that does,
and its target that of no other one that changes anything. -/
def Independent (mappings : List (String × String)) (path : String) : Prop :=
  ∀ mapping ∈ mappings, Rewrites path mapping →
    ∀ other ∈ mappings, other ≠ mapping → other.1 ≠ other.2 →
      mapping.1 ≠ "" ∧ Apart other.1.toList mapping.2.toList ∧
      (Rewrites path other → Apart other.1.toList mapping.1.toList)

/-! ## The table -/

section Table

variable {map : DwarfSourceMap} {old new : String} {entries mappings : List (String × String)}

lemma insertMapping_of_mem (hmem : (old, new) ∈ entries)
    (hdistinct : (entries.map Prod.fst).Nodup) : insertMapping old new entries = entries := by
  induction entries with
  | nil => cases hmem
  | cons entry entries ih =>
    rw [List.map_cons, List.nodup_cons] at hdistinct
    by_cases hold : entry.1 = old
    · -- no further entry has the key
      have hentry : (old, new) = entry := by
        refine (List.mem_cons.1 hmem).resolve_right fun hmem' => hdistinct.1 ?_
        rw [hold]
        exact List.mem_map_of_mem hmem'
      rw [insertMapping, if_pos hold, hentry]
    · have hmem' : (old, new) ∈ entries := by
        refine (List.mem_cons.1 hmem).resolve_left fun hentry => hold ?_
        rw [← hentry]
      rw [insertMapping, if_neg hold, ih hmem' hdistinct.2]

lemma insertMapping_of_not_mem (hold : old ∉ entries.map Prod.fst) :
    insertMapping old new entries = entries ++ [(old, new)] := by
  induction entries with
  | nil => rfl
  | cons entry entries ih =>
    rw [List.map_cons, List.mem_cons, not_or] at hold
    rw [insertMapping, if_neg (Ne.symm hold.1), ih hold.2]
    rfl

/-- Mappings with new sources become the last entries. -/
lemma directoryMap_setAll (hdistinct : ((map.directoryMap ++ mappings).map Prod.fst).Nodup) :
    (map.setAll mappings).directoryMap = map.directoryMap ++ mappings := by
  induction mappings generalizing map with
  | nil => exact (List.append_nil _).symm
  | cons mapping mappings ih =>
    have hnew : mapping.1 ∉ map.directoryMap.map Prod.fst := by
      intro hmem
      rw [List.map_append, List.nodup_append] at hdistinct
      exact hdistinct.2.2 _ hmem _ (List.mem_map_of_mem List.mem_cons_self) rfl
    have hset : (map.setDirectoryMap mapping.1 mapping.2).directoryMap =
        map.directoryMap ++ [mapping] := insertMapping_of_not_mem hnew
    have hrest := @ih (map.setDirectoryMap mapping.1 mapping.2)
    rw [hset, List.append_assoc, List.singleton_append] at hrest
    exact hrest hdistinct

lemma iteratedIn_setAll (order : List (String × String)) :
    (map.setAll mappings).iteratedIn order = map.iteratedIn order := by
  induction mappings generalizing map with
  | nil => rfl
  | cons mapping mappings ih => exact @ih (map.setDirectoryMap mapping.1 mapping.2)

/-- Entries that are there are set again. -/
lemma setAll_of_mem (hmem : ∀ mapping ∈ mappings, mapping ∈ map.directoryMap)
    (hdistinct : (map.directoryMap.map Prod.fst).Nodup) : map.setAll mappings = map := by
  induction mappings with
  | nil => rfl
  | cons mapping mappings ih =>
    have hset : map.setDirectoryMap mapping.1 mapping.2 = map := by
      rw [DwarfSourceMap.setDirectoryMap,
        insertMapping_of_mem (hmem mapping List.mem_cons_self) hdistinct]
    show (map.setDirectoryMap mapping.1 mapping.2).setAll mappings = map
    rw [hset]
    exact ih fun other hother => hmem other (List.mem_cons_of_mem _ hother)

end Table

/-! ## Rewriting -/

/-- The path after the mappings, in their order. -/
def remap (order : List (String × String)) (path : String) : String :=
  order.foldl (fun path mapping => path.replace mapping.1 mapping.2) path

lemma foldl_filepath (order : List (String × String)) (lineInfo : LineInfo) :
    order.foldl (fun lineInfo mapping =>
      { lineInfo with filepath := lineInfo.filepath.replace mapping.1 mapping.2 }) lineInfo =
    { lineInfo with filepath := remap order lineInfo.filepath } := by
  induction order generalizing lineInfo with
  | nil => rfl
  | cons mapping order ih => exact ih _

lemma findLineInfo_iteratedIn (map : DwarfSourceMap) (order : List (String × String))
    (offset : Nat) : (map.iteratedIn order).findLineInfo offset =
      ((map.iteratedIn []).findLineInfo offset).map fun lineInfo =>
        { lineInfo with filepath := remap order lineInfo.filepath } := by
  rw [DwarfSourceMap.findLineInfo, DwarfSourceMap.findLineInfo, Option.map_map]
  exact congrArg (Option.map · _) (funext fun entry => foldl_filepath order entry.2)

section Rewriting

variable {mappings order order' : List (String × String)} {path : String}
  {mapping other : String × String}

lemma replace_of_not_rewrites (h : ¬Rewrites path mapping) :
    path.replace mapping.1 mapping.2 = path := by
  by_cases hsame : mapping.1 = mapping.2
  · rw [← hsame]
    by_cases hempty : mapping.1 = ""
    · rw [hempty, replace_empty]
    · rw [← String.toList_inj, toList_replace hempty, replaceAll_self (by simpa using hempty)]
  · have hnot : ¬mapping.1.toList <:+: path.toList := fun hin => h ⟨hsame, hin⟩
    have hempty : mapping.1 ≠ "" := by
      intro hempty
      rw [hempty] at hnot
      exact hnot List.nil_infix
    rw [← String.toList_inj, toList_replace hempty, replaceAll_of_not_occurs hnot]

/-- No mapping comes to rewrite the path. -/
lemma Independent.rewrites_of_replace (h : Independent mappings path) (hmapping : mapping ∈ mappings)
    (hother : other ∈ mappings)
    (hrewrites : Rewrites (path.replace mapping.1 mapping.2) other) : Rewrites path other := by
  by_cases hactive : Rewrites path mapping
  · by_cases heq : other = mapping
    · rw [heq]
      exact hactive
    · obtain ⟨hempty, hnew, -⟩ := h mapping hmapping hactive other hother heq hrewrites.1
      have hin := hrewrites.2
      rw [toList_replace hempty] at hin
      exact ⟨hrewrites.1, infix_of_infix_replaceAll (by simpa using hempty) hnew hin⟩
  · rw [replace_of_not_rewrites hactive] at hrewrites
    exact hrewrites

/-- Mappings stay independent while they are applied. -/
lemma Independent.replace (h : Independent mappings path) (hmapping : mapping ∈ mappings) :
    Independent mappings (path.replace mapping.1 mapping.2) := by
  intro active hactive hrewrites other hother hne heffect
  obtain ⟨hempty, hnew, hold⟩ := h active hactive
    (h.rewrites_of_replace hmapping hactive hrewrites) other hother hne heffect
  exact ⟨hempty, hnew, fun hrewrites' => hold (h.rewrites_of_replace hmapping hother hrewrites')⟩

lemma Independent.replace_comm (h : Independent mappings path) (hmapping : mapping ∈ mappings)
    (hother : other ∈ mappings) :
    (path.replace mapping.1 mapping.2).replace other.1 other.2 =
      (path.replace other.1 other.2).replace mapping.1 mapping.2 := by
  by_cases heq : other = mapping
  · rw [heq]
  by_cases hactive : Rewrites path mapping
  · by_cases hactive' : Rewrites path other
    · obtain ⟨hempty, hnew, hold⟩ := h mapping hmapping hactive other hother heq hactive'.1
      obtain ⟨hempty', hnew', -⟩ := h other hother hactive' mapping hmapping (Ne.symm heq) hactive.1
      rw [← String.toList_inj, toList_replace hempty', toList_replace hempty,
        toList_replace hempty, toList_replace hempty']
      exact replaceAll_comm (by simpa using hempty') (by simpa using hempty) (hold hactive')
        hnew' hnew path.toList
    · have hstill : ¬Rewrites (path.replace mapping.1 mapping.2) other := fun hrewrites =>
        hactive' (h.rewrites_of_replace hmapping hother hrewrites)
      rw [replace_of_not_rewrites hactive', replace_of_not_rewrites hstill]
  · have hstill : ¬Rewrites (path.replace other.1 other.2) mapping := fun hrewrites =>
      hactive (h.rewrites_of_replace hother hmapping hrewrites)
    rw [replace_of_not_rewrites hactive, replace_of_not_rewrites hstill]

/-- Every order of the mappings rewrites the path in the same way. -/
lemma Independent.remap_perm (h : Independent mappings path) (hperm : order.Perm order')
    (horder : ∀ mapping ∈ order, mapping ∈ mappings) : remap order path = remap order' path := by
  induction hperm generalizing path with
  | nil => rfl
  | cons mapping _ ih =>
    exact ih (h.replace (horder mapping List.mem_cons_self))
      fun other hother => horder other (List.mem_cons_of_mem _ hother)
  | swap mapping other order =>
    have hmapping := horder mapping (List.mem_cons_of_mem _ List.mem_cons_self)
    have hother := horder other List.mem_cons_self
    exact congrArg (remap order) (h.replace_comm hother hmapping)
  | trans hperm₁ _ ih₁ ih₂ =>
    exact (ih₁ h horder).trans
      (ih₂ h fun mapping hmapping => horder mapping (hperm₁.mem_iff.2 hmapping))

end Rewriting

/-! ## What is reported -/

lemma directoryMap_new {units : List DwarfUnitSourceMap} {map : DwarfSourceMap}
    (h : DwarfSourceMap.new units = some map) : map.directoryMap = [] := by
  obtain ⟨rows, -, hmap⟩ := Option.bind_eq_some_iff.1 h
  rw [← Option.some.inj hmap]

/-- Mappings with different sources may be set again. Where they are independent for the recorded
path, neither the order in which they are set nor that in which they are iterated matters. -/
theorem findLineInfo_order_independent {units : List DwarfUnitSourceMap} {map : DwarfSourceMap}
    (hnew : DwarfSourceMap.new units = some map) {mappings : List (String × String)}
    (hdistinct : (mappings.map Prod.fst).Nodup) :
    (∀ settings again : List (String × String), settings.Perm mappings →
      (∀ mapping ∈ again, mapping ∈ mappings) →
      (map.setAll settings).setAll again = map.setAll settings) ∧
    ∀ offset, (∀ lineInfo, map.findLineInfo offset = some lineInfo →
        Independent mappings lineInfo.filepath) →
      ∀ settings settings' : List (String × String), settings.Perm mappings →
        settings'.Perm mappings → ∀ reported reported',
        (map.setAll settings).Reports offset reported →
        (map.setAll settings').Reports offset reported' → reported = reported' := by
  have hempty := directoryMap_new hnew
  have htable : ∀ settings : List (String × String), settings.Perm mappings →
      (map.setAll settings).directoryMap = settings := by
    intro settings hperm
    rw [directoryMap_setAll, hempty, List.nil_append]
    rw [hempty, List.nil_append]
    exact (hperm.map Prod.fst).nodup_iff.2 hdistinct
  refine ⟨fun settings again hperm hagain => ?_, ?_⟩
  · refine setAll_of_mem (fun mapping hmapping => ?_) ?_
    · rw [htable settings hperm]
      exact hperm.mem_iff.2 (hagain mapping hmapping)
    · rw [htable settings hperm]
      exact (hperm.map Prod.fst).nodup_iff.2 hdistinct
  · intro offset hindependent settings settings' hperm hperm' reported reported' hreported hreported'
    obtain ⟨order, horder, rfl⟩ := hreported
    obtain ⟨order', horder', rfl⟩ := hreported'
    rw [htable settings hperm] at horder
    rw [htable settings' hperm'] at horder'
    have hstart : map.iteratedIn [] = map := by rw [DwarfSourceMap.iteratedIn, ← hempty]
    rw [iteratedIn_setAll, iteratedIn_setAll, findLineInfo_iteratedIn map order,
      findLineInfo_iteratedIn map order', hstart]
    refine Option.map_congr fun lineInfo hlineInfo => ?_
    have hboth : order.Perm order' := (horder.trans hperm).trans (horder'.trans hperm').symm
    rw [(hindependent lineInfo hlineInfo).remap_perm hboth fun mapping hmapping =>
      (horder.trans hperm).mem_iff.1 hmapping]

/-- A unit with the one path `/a`. -/
def oneRow : DwarfUnitSourceMap := ⟨[(0, ⟨0, 0, some 1, .leftEdge, false⟩)], ["/a"], 0⟩

/-- Its source map. -/
def oneRowMap : DwarfSourceMap := ⟨[(0, ⟨"/a", some 1, .leftEdge⟩)], [0], []⟩

/-- `/a` is mapped to `/b` and `/c` to `/d`, in one order and in the other. -/
theorem findLineInfo_order_independent_pair :
    ((oneRowMap.setAll [("/a", "/b"), ("/c", "/d")]).iteratedIn
        [("/a", "/b"), ("/c", "/d")]).findLineInfo 0 =
      ((oneRowMap.setAll [("/c", "/d"), ("/a", "/b")]).iteratedIn
        [("/c", "/d"), ("/a", "/b")]).findLineInfo 0 := by
  have hnew : DwarfSourceMap.new [oneRow] = some oneRowMap := rfl
  have hdistinct : (List.map Prod.fst [("/a", "/b"), ("/c", "/d")]).Nodup := by decide
  have hindependent : Independent [("/a", "/b"), ("/c", "/d")] "/a" := by
    intro mapping hmapping hrewrites other hother hne heffect
    rw [List.mem_pair] at hmapping hother
    rcases hmapping with rfl | rfl
    · rcases hother with rfl | rfl
      · exact absurd rfl hne
      · exact ⟨by decide, by decide, fun hrewrites' => absurd hrewrites'.2 (by decide)⟩
    · exact absurd hrewrites.2 (by decide)
  refine (findLineInfo_order_independent hnew hdistinct).2 0 (fun lineInfo hlineInfo => ?_) _ _
    (.refl _) (List.Perm.swap _ _ _) _ _ ⟨_, .refl _, rfl⟩ ⟨_, .refl _, rfl⟩
  rw [← Option.some.inj hlineInfo]
  exact hindependent

/-- With `/a` mapped to `/b` and `/b` to `/c`, the order decides between `/c` and `/b`. -/
theorem findLineInfo_order_dependent :
    ¬∀ (units : List DwarfUnitSourceMap) (map : DwarfSourceMap),
      DwarfSourceMap.new units = some map →
      ∀ settings : List (String × String), (settings.map Prod.fst).Nodup →
      ∀ offset reported reported', (map.setAll settings).Reports offset reported →
        (map.setAll settings).Reports offset reported' → reported = reported' := by
  intro h
  have hfirst : "/a".replace "/a" "/b" = "/b" := replace_eq (by decide) (by decide)
  have hsecond : "/b".replace "/b" "/c" = "/c" := replace_eq (by decide) (by decide)
  have hkeep : "/a".replace "/b" "/c" = "/a" := replace_eq (by decide) (by decide)
  have hsame := h [oneRow] _ rfl [("/a", "/b"), ("/b", "/c")] (by decide) 0
    (some ⟨("/a".replace "/a" "/b").replace "/b" "/c", some 1, .leftEdge⟩)
    (some ⟨("/a".replace "/b" "/c").replace "/a" "/b", some 1, .leftEdge⟩)
    ⟨[("/a", "/b"), ("/b", "/c")], .refl _, rfl⟩
    ⟨[("/b", "/c"), ("/a", "/b")], List.Perm.swap _ _ _, rfl⟩
  rw [hfirst, hsecond, hkeep, hfirst] at hsame
  exact absurd (congrArg (Option.map LineInfo.filepath) hsame) (by decide)

end Debugger

end MotokoDebugger
