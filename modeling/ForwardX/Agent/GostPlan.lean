import ForwardX.Agent.GostAdditive

/- What a plan of additions to a running GOST says about the two configurations: the objects of a
   collection are those of its list by their names, and a plan without a reason keeps each of the
   live ones and adds each that is new. -/
namespace ForwardX.Agent.Gost

section
variable {N : Type}

/-! ## Objects by name -/

def objectName (item : Json N) : String := stringAt (asMap item) "name"

@[simp] theorem objectName_obj (object : Fields N) : objectName (.obj object) = stringAt object "name" := rfl

def named (items : List (Json N)) (name : String) : Option (Fields N) :=
  (items.find? (fun item => objectName item = name)).map asMap

theorem named_cons (item : Json N) (items : List (Json N)) (name : String) :
    named (item :: items) name = if objectName item = name then some (asMap item) else named items name := by
  by_cases hname : objectName item = name
  · rw [if_pos hname, named, List.find?_cons_of_pos (by simpa using hname)]
    rfl
  · rw [if_neg hname, named, List.find?_cons_of_neg (by simpa using hname)]
    rfl

theorem named_append (items more : List (Json N)) (name : String) :
    named (items ++ more) name = (named items name).or (named more name) := by
  rw [named, List.find?_append, Option.map_or]
  rfl

variable {items : List (Json N)} {name : String}

theorem named_eq_none : named items name = none ↔ name ∉ items.map objectName := by
  simp only [named, Option.map_eq_none_iff, List.find?_eq_none, List.mem_map, decide_eq_true_eq, not_exists, not_and]

theorem named_of_mem (hnd : (items.map objectName).Nodup) {item : Json N} (h : item ∈ items) :
    named items (objectName item) = some (asMap item) := by
  induction items with
  | nil => cases h
  | cons first rest ih =>
    rw [List.map_cons, List.nodup_cons] at hnd
    rcases List.mem_cons.mp h with rfl | h
    · rw [named_cons, if_pos rfl]
    · have hne : objectName first ≠ objectName item := fun heq => hnd.1 (heq ▸ List.mem_map_of_mem h)
      rw [named_cons, if_neg hne]
      exact ih hnd.2 h

theorem mem_of_named {object : Fields N} (h : named items name = some object) :
    ∃ item ∈ items, objectName item = name ∧ asMap item = object := by
  obtain ⟨item, hitem, hobject⟩ := Option.map_eq_some_iff.mp h
  exact ⟨item, List.mem_of_find?_eq_some hitem, by simpa using List.find?_some hitem, hobject⟩

structure Readable (items : List (Json N)) : Prop where
  object : ∀ item ∈ items, item = .obj (asMap item)
  valid : ∀ item ∈ items, validName (objectName item) = true
  nodup : (items.map objectName).Nodup

theorem collect_readable {collection : String} {result out : List (String × Fields N)}
    (h : collect collection result items = .ok out) :
    Readable items ∧ ∀ item ∈ items, result.lookup (objectName item) = none := by
  induction items generalizing result with
  | nil => exact ⟨⟨by simp, by simp, by simp⟩, by simp⟩
  | cons item rest ih =>
    cases item with
    | obj object =>
      rw [collect] at h
      by_cases hbad : (!validName (stringAt object "name") || (result.lookup (stringAt object "name")).isSome) = true
      · rw [if_pos hbad] at h
        cases h
      · rw [if_neg hbad] at h
        simp only [Bool.or_eq_true, Bool.not_eq_true', not_or, Bool.not_eq_false, Option.not_isSome_iff_eq_none] at hbad
        obtain ⟨hread, hfree⟩ := ih h
        -- a name of the rest is not the name that was just put
        have hne : ∀ item ∈ rest, objectName item ≠ stringAt object "name" := by
          intro item hitem heq
          have := hfree item hitem
          rw [heq, Assoc.lookup_put_self] at this
          cases this
        refine ⟨⟨?_, ?_, ?_⟩, ?_⟩
        · exact List.forall_mem_cons.mpr ⟨rfl, hread.object⟩
        · exact List.forall_mem_cons.mpr ⟨hbad.1, hread.valid⟩
        · rw [List.map_cons, List.nodup_cons]
          refine ⟨fun hmem => ?_, hread.nodup⟩
          obtain ⟨item, hitem, heq⟩ := List.mem_map.mp hmem
          exact hne item hitem heq
        · refine List.forall_mem_cons.mpr ⟨hbad.2, fun item hitem => ?_⟩
          rw [← hfree item hitem, Assoc.lookup_put_ne _ (hne item hitem)]
    | _ => cases h

theorem collect_ok (collection : String) (hread : Readable items) (result : List (String × Fields N))
    (hfree : ∀ item ∈ items, result.lookup (objectName item) = none) :
    ∃ out, collect collection result items = .ok out ∧
      ∀ name, out.lookup name = (result.lookup name).or ((named items name).map (copyObject collection)) := by
  induction items generalizing result with
  | nil => exact ⟨result, rfl, fun name => by simp [named]⟩
  | cons item rest ih =>
    obtain ⟨object, rfl⟩ : ∃ object, item = .obj object := ⟨_, hread.object item List.mem_cons_self⟩
    have hvalid := hread.valid (.obj object) List.mem_cons_self
    have hnone := hfree (.obj object) List.mem_cons_self
    rw [objectName_obj] at hvalid hnone
    have hnd := hread.nodup
    rw [List.map_cons, List.nodup_cons] at hnd
    have hrest : Readable rest :=
      ⟨fun item hitem => hread.object item (List.mem_cons_of_mem _ hitem),
        fun item hitem => hread.valid item (List.mem_cons_of_mem _ hitem), hnd.2⟩
    have hfree' : ∀ item ∈ rest,
        (Assoc.put result (stringAt object "name") (copyObject collection object)).lookup (objectName item) = none := by
      intro item hitem
      have hne : objectName item ≠ stringAt object "name" := fun heq =>
        hnd.1 (List.mem_map.mpr ⟨item, hitem, heq⟩)
      rw [Assoc.lookup_put_ne _ hne]
      exact hfree item (List.mem_cons_of_mem _ hitem)
    obtain ⟨out, hout, hlookup⟩ := ih hrest _ hfree'
    refine ⟨out, ?_, fun name => ?_⟩
    · simp only [collect, hvalid, hnone, Bool.not_true, Option.isSome_none, Bool.or_self, Bool.false_eq_true, if_false]
      exact hout
    · rw [hlookup name]
      by_cases hname : name = stringAt object "name"
      · subst hname
        rw [Assoc.lookup_put_self, hnone, named_cons, objectName_obj, if_pos rfl]
        rfl
      · rw [Assoc.lookup_put_ne _ hname, named_cons, objectName_obj, if_neg (Ne.symm hname)]

theorem collect_nodup {collection : String} {result out : List (String × Fields N)} (hnd : (Assoc.keys result).Nodup)
    (h : collect collection result items = .ok out) : (Assoc.keys out).Nodup := by
  induction items generalizing result with
  | nil =>
    obtain rfl : result = out := by simpa [collect] using h
    exact hnd
  | cons item rest ih =>
    cases item with
    | obj object =>
      rw [collect] at h
      by_cases hbad : (!validName (stringAt object "name") || (result.lookup (stringAt object "name")).isSome) = true
      · rw [if_pos hbad] at h
        cases h
      · rw [if_neg hbad] at h
        exact ih (Assoc.nodup_put hnd _ _) h
    | _ => cases h

variable {collection : String} {config : Fields N} {out : List (String × Fields N)}

theorem gostObjects_collect (h : gostObjects config collection = .ok out) :
    collect collection [] (listAt config collection) = .ok out := by
  rw [gostObjects] at h
  rw [listAt]
  cases hlist : config.lookup collection with
  | none => simpa only [hlist, collect] using h
  | some value =>
    cases value with
    | null => simpa only [hlist, collect] using h
    | arr items => simpa only [hlist] using h
    | _ => simp only [hlist, reduceCtorEq] at h

theorem gostObjects_readable (h : gostObjects config collection = .ok out) : Readable (listAt config collection) :=
  (collect_readable (gostObjects_collect h)).1

theorem gostObjects_lookup (h : gostObjects config collection = .ok out) (name : String) :
    out.lookup name = (named (listAt config collection) name).map (copyObject collection) := by
  obtain ⟨out', hout', hlookup⟩ := collect_ok collection (gostObjects_readable h) [] (by simp)
  obtain rfl : out' = out := Except.ok.inj (hout'.symm.trans (gostObjects_collect h))
  simpa using hlookup name

theorem gostObjects_nodup (h : gostObjects config collection = .ok out) : (Assoc.keys out).Nodup :=
  collect_nodup (by simp) (gostObjects_collect h)

/-! ## Copies -/

theorem lookup_withoutStatus (object : Fields N) {key : String} (hkey : key ≠ "status") :
    (withoutStatus object).lookup key = object.lookup key := by
  rw [withoutStatus]
  induction object with
  | nil => rfl
  | cons field rest ih =>
    by_cases hfield : field.1 = "status"
    · have hne : (key == field.1) = false := by simpa [hfield] using hkey
      rw [List.filter_cons_of_neg (by simp [hfield]), ih, List.lookup_cons, hne]
    · rw [List.filter_cons_of_pos (by simp [hfield]), List.lookup_cons, List.lookup_cons, ih]

theorem name_copyObject (collection : String) (object : Fields N) :
    stringAt (copyObject collection object) "name" = stringAt object "name" := by
  rw [stringAt, stringAt]
  suffices h : (copyObject collection object).lookup "name" = object.lookup "name" by rw [h]
  rw [copyObject]
  by_cases hservices : collection = "services"
  · rw [if_pos hservices, ← lookup_withoutStatus object (show "name" ≠ "status" by decide)]
    split
    · exact Assoc.lookup_put_ne _ (by decide) _
    · rfl
  · rw [if_neg hservices]

theorem withoutHints_withoutHints (raw : Json N) : withoutHints (withoutHints raw) = withoutHints raw := by
  cases raw with
  | obj node => simp [withoutHints, List.filter_filter]
  | _ => rfl

theorem copyForwarder_copyForwarder (forwarder : Fields N) :
    copyForwarder (copyForwarder forwarder) = copyForwarder forwarder := by
  by_cases hnodes : ∃ nodes, forwarder.lookup "nodes" = some (.arr nodes)
  · obtain ⟨nodes, hnodes⟩ := hnodes
    have hcopy : copyForwarder forwarder = Assoc.put forwarder "nodes" (.arr (nodes.map withoutHints)) := by
      rw [copyForwarder, hnodes]
    have hhints : withoutHints ∘ withoutHints = (withoutHints : Json N → Json N) := by
      funext raw
      exact withoutHints_withoutHints raw
    rw [hcopy, copyForwarder, Assoc.lookup_put_self]
    simp only [Assoc.put_put, List.map_map, hhints]
  · have hcopy : copyForwarder forwarder = forwarder := by
      rw [copyForwarder]
      split
      · next nodes h => exact absurd ⟨nodes, h⟩ hnodes
      · rfl
    rw [hcopy, hcopy]

theorem withoutStatus_put (object : Fields N) (value : Json N) :
    withoutStatus (Assoc.put object "forwarder" value) = Assoc.put (withoutStatus object) "forwarder" value := by
  simp only [withoutStatus, Assoc.put, Assoc.erase, List.filter_append, List.filter_filter, Bool.and_comm]
  rfl

@[simp] theorem withoutStatus_withoutStatus (object : Fields N) : withoutStatus (withoutStatus object) = withoutStatus object := by
  simp [withoutStatus]

theorem withoutStatus_copyObject (object : Fields N) :
    withoutStatus (copyObject "services" object) = copyObject "services" object := by
  rw [copyObject, if_pos rfl]
  split
  · rw [withoutStatus_put, withoutStatus_withoutStatus]
  · exact withoutStatus_withoutStatus object

theorem copyObject_copyObject (collection : String) (object : Fields N) :
    copyObject collection (copyObject collection object) = copyObject collection object := by
  by_cases hservices : collection = "services"
  · subst hservices
    rw [copyObject, if_pos rfl, withoutStatus_copyObject]
    by_cases hforwarder : ∃ forwarder, (withoutStatus object).lookup "forwarder" = some (.obj forwarder)
    · obtain ⟨forwarder, hforwarder⟩ := hforwarder
      simp only [copyObject, if_true, hforwarder, Assoc.lookup_put_self, Assoc.put_put, copyForwarder_copyForwarder]
    · have hcopy : copyObject "services" object = withoutStatus object := by
        rw [copyObject, if_pos rfl]
        split
        · next forwarder h => exact absurd ⟨forwarder, h⟩ hforwarder
        · rfl
      rw [hcopy]
      split
      · next forwarder h => exact absurd ⟨forwarder, h⟩ hforwarder
      · rfl
  · simp only [copyObject, if_neg hservices]

theorem gostObjects_object {object : Fields N} (h : gostObjects config collection = .ok out)
    (hlookup : out.lookup name = some object) :
    copyObject collection object = object ∧ stringAt object "name" = name ∧ validName name = true := by
  rw [gostObjects_lookup h] at hlookup
  obtain ⟨original, hnamed, rfl⟩ := Option.map_eq_some_iff.mp hlookup
  obtain ⟨item, hitem, rfl, rfl⟩ := mem_of_named hnamed
  exact ⟨copyObject_copyObject collection _, name_copyObject collection _, (gostObjects_readable h).valid item hitem⟩

/-! ## New objects -/

theorem mem_newObjects {old next : List (String × Fields N)} {addition : GostAddition N} :
    addition ∈ newObjects collection old next ↔
      addition.collection = collection ∧ old.lookup addition.name = none ∧
        next.lookup addition.name = some addition.object := by
  simp only [newObjects, List.mem_filterMap, List.mem_insertionSort, List.mem_filter, Option.map_eq_some_iff,
    Bool.not_eq_true', Option.isSome_eq_false_iff, Option.isNone_iff_eq_none]
  constructor
  · rintro ⟨name, ⟨_, hold⟩, object, hnext, rfl⟩
    exact ⟨rfl, hold, hnext⟩
  · rintro ⟨rfl, hold, hnext⟩
    exact ⟨addition.name, ⟨List.mem_map_of_mem (Assoc.mem_of_lookup hnext), hold⟩, addition.object, hnext, rfl⟩

theorem newObjects_nodup (collection : String) (old : List (String × Fields N)) {next : List (String × Fields N)}
    (hnd : (Assoc.keys next).Nodup) : ((newObjects collection old next).map GostAddition.name).Nodup := by
  rw [newObjects, List.map_filterMap]
  refine List.Nodup.filterMap (fun name other b hname hother => ?_)
    ((List.perm_insertionSort (· ≤ ·) _).nodup_iff.mpr (hnd.filter _))
  -- what an object is named is what it was looked up by
  simp only [Option.map_map, Option.mem_def, Option.map_eq_some_iff, Function.comp_apply] at hname hother
  obtain ⟨_, _, rfl⟩ := hname
  obtain ⟨_, _, hother⟩ := hother
  exact hother.symm

section
variable [DecidableEq N] [Zero N] (env : Env N) {collection : String}

theorem objectsKept_none {next old : List (String × Fields N)} (h : objectsKept env collection next old = none)
    {object : Fields N} (hold : (name, object) ∈ old) :
    ∃ wanted, next.lookup name = some wanted ∧ sameValue env (.obj object) (.obj wanted) = true := by
  induction old with
  | nil => cases hold
  | cons entry rest ih =>
    obtain ⟨first, firstObject⟩ := entry
    rw [objectsKept] at h
    cases hnext : next.lookup first with
    | none => simp [hnext] at h
    | some wanted =>
      by_cases hsame : sameValue env (.obj firstObject) (.obj wanted) = true
      · rw [hnext] at h
        rcases List.mem_cons.mp hold with heq | hold
        · cases heq
          exact ⟨wanted, hnext, hsame⟩
        · exact ih (by simpa [hsame] using h) hold
      · simp [hnext, hsame] at h

theorem objectsKept_some {next old : List (String × Fields N)} {reason : String}
    (h : objectsKept env collection next old = some reason) : reason ≠ "" := by
  induction old with
  | nil => cases h
  | cons entry rest ih =>
    obtain ⟨first, firstObject⟩ := entry
    have htext : ∀ suffix : String, suffix ≠ "" → collection ++ suffix ≠ "" := by
      intro suffix hsuffix happend
      exact hsuffix (String.append_eq_empty_iff.mp happend).2
    rw [objectsKept] at h
    cases hnext : next.lookup first with
    | none =>
      obtain rfl : collection ++ "-removed" = reason := by simpa [hnext] using h
      exact htext _ (by decide)
    | some wanted =>
      by_cases hsame : sameValue env (.obj firstObject) (.obj wanted) = true
      · exact ih (by simpa [hnext, hsame] using h)
      · obtain rfl : collection ++ "-changed" = reason := by simpa [hnext, hsame] using h
        exact htext _ (by decide)

/-- What a plan without a reason says about a collection. -/
structure Planned (live desired : Fields N) (additions : List (GostAddition N)) (collection : String)
    (old next : List (String × Fields N)) : Prop where
  live_ok : gostObjects live collection = .ok old
  desired_ok : gostObjects desired collection = .ok next
  kept : ∀ name object, old.lookup name = some object →
    ∃ wanted, next.lookup name = some wanted ∧ sameValue env (.obj object) (.obj wanted) = true
  added : additions.filter (fun addition => addition.collection = collection) = newObjects collection old next

theorem planCollections_planned {live desired : Fields N} {rest : List String} {additions out : List (GostAddition N)}
    (hnd : rest.Nodup) (hbefore : ∀ addition ∈ additions, addition.collection ∉ rest)
    (h : planCollections env live desired additions rest = .ok (out, "")) :
    (∀ collection ∉ rest, out.filter (fun addition => addition.collection = collection) =
      additions.filter (fun addition => addition.collection = collection)) ∧
    ∀ collection ∈ rest, ∃ old next, Planned env live desired out collection old next := by
  induction rest generalizing additions with
  | nil =>
    obtain rfl : additions = out := by simpa [planCollections] using h
    exact ⟨fun _ _ => rfl, by simp⟩
  | cons collection rest ih =>
    rw [List.nodup_cons] at hnd
    rw [planCollections] at h
    cases hold : gostObjects live collection with
    | error err => simp [hold] at h
    | ok old =>
      cases hnext : gostObjects desired collection with
      | error err => simp [hold, hnext] at h
      | ok next =>
        cases hkept : objectsKept env collection next old with
        | some reason =>
          simp only [hold, hnext, hkept, Except.ok.injEq, Prod.mk.injEq] at h
          exact absurd h.2 (objectsKept_some env hkept)
        | none =>
          simp only [hold, hnext, hkept] at h
          have hnew : ∀ addition ∈ newObjects collection old next, addition.collection = collection :=
            fun addition hmem => (mem_newObjects.mp hmem).1
          have hbefore' : ∀ addition ∈ additions ++ newObjects collection old next, addition.collection ∉ rest := by
            intro addition hmem
            rcases List.mem_append.mp hmem with hmem | hmem
            · exact fun hin => hbefore addition hmem (List.mem_cons_of_mem _ hin)
            · rw [hnew addition hmem]
              exact hnd.1
          obtain ⟨hothers, hrest⟩ := ih hnd.2 hbefore' h
          refine ⟨fun other hother => ?_, fun other hother => ?_⟩
          · rw [List.mem_cons, not_or] at hother
            have hnone : (newObjects collection old next).filter (fun addition => addition.collection = other) = [] := by
              refine List.filter_eq_nil_iff.mpr fun addition hmem => ?_
              simpa [hnew addition hmem] using Ne.symm hother.1
            rw [hothers other hother.2, List.filter_append, hnone, List.append_nil]
          · rcases List.mem_cons.mp hother with rfl | hother
            · refine ⟨old, next, hold, hnext, fun name object hlookup => ?_, ?_⟩
              · exact objectsKept_none env hkept (Assoc.mem_of_lookup hlookup)
              · have hnone : additions.filter (fun addition => addition.collection = other) = [] := by
                  refine List.filter_eq_nil_iff.mpr fun addition hmem heq => ?_
                  exact hbefore addition hmem (by simpa using Or.inl (of_decide_eq_true heq))
                have hall : (newObjects other old next).filter (fun addition => addition.collection = other) =
                    newObjects other old next :=
                  List.filter_eq_self.mpr fun addition hmem => decide_eq_true (hnew addition hmem)
                rw [hothers other hnd.1, List.filter_append, hnone, hall, List.nil_append]
            · exact hrest other hother

/-! ## The configuration that a plan leads to -/

def gostCollections : List String := ["limiters", "chains", "services"]

/-- The live configuration without the services that are named as the probes. -/
def withoutProbes (live : Fields N) (probes : List (GostAddition N)) : Fields N :=
  Assoc.put live "services"
    (.arr ((listAt live "services").filter (fun item => objectName item ∉ probes.map GostAddition.name)))

/-- The additions to a collection as items of its list. -/
def addedItems (additions : List (GostAddition N)) (collection : String) : List (Json N) :=
  (additions.filter (fun addition => addition.collection = collection)).map (fun addition => .obj addition.object)

/-- A collection with its additions at the end. -/
def withObjects (additions : List (GostAddition N)) (config : Fields N) (collection : String) : Fields N :=
  Assoc.put config collection (.arr (listAt config collection ++ addedItems additions collection))

def withAdditions (config : Fields N) (additions : List (GostAddition N)) : Fields N :=
  gostCollections.foldl (withObjects additions) config

omit [DecidableEq N] [Zero N] in
@[simp] theorem listAt_put_self (config : Fields N) (key : String) (items : List (Json N)) :
    listAt (Assoc.put config key (.arr items)) key = items := by
  rw [listAt, Assoc.lookup_put_self]

omit [DecidableEq N] [Zero N] in
theorem listAt_put_ne (config : Fields N) {key other : String} (h : other ≠ key) (value : Json N) :
    listAt (Assoc.put config key value) other = listAt config other := by
  rw [listAt, listAt, Assoc.lookup_put_ne _ h]

omit [DecidableEq N] [Zero N] in
theorem lookup_withAdditions_of_notMem (config : Fields N) (additions : List (GostAddition N)) {key : String}
    (h : key ∉ gostCollections) : (withAdditions config additions).lookup key = config.lookup key := by
  simp only [gostCollections, List.mem_cons, List.not_mem_nil, or_false, not_or] at h
  simp only [withAdditions, gostCollections, List.foldl_cons, List.foldl_nil, withObjects]
  rw [Assoc.lookup_put_ne _ h.2.2, Assoc.lookup_put_ne _ h.2.1, Assoc.lookup_put_ne _ h.1]

omit [DecidableEq N] [Zero N] in
theorem lookup_withAdditions (config : Fields N) (additions : List (GostAddition N))
    (h : collection ∈ gostCollections) :
    (withAdditions config additions).lookup collection =
      some (.arr (listAt config collection ++ addedItems additions collection)) := by
  have hchains : "chains" ≠ "limiters" := by decide
  have hservices : "services" ≠ "limiters" ∧ "services" ≠ "chains" := by decide
  simp only [withAdditions, gostCollections, List.foldl_cons, List.foldl_nil, withObjects]
  simp only [gostCollections, List.mem_cons, List.not_mem_nil, or_false] at h
  rcases h with rfl | rfl | rfl
  · rw [Assoc.lookup_put_ne _ hservices.1.symm, Assoc.lookup_put_ne _ hchains.symm, Assoc.lookup_put_self]
  · rw [Assoc.lookup_put_ne _ hservices.2.symm, Assoc.lookup_put_self, listAt_put_ne _ hchains]
  · rw [Assoc.lookup_put_self, listAt_put_ne _ hservices.2, listAt_put_ne _ hservices.1]

omit [DecidableEq N] [Zero N] in
theorem listAt_withAdditions (config : Fields N) (additions : List (GostAddition N))
    (h : collection ∈ gostCollections) :
    listAt (withAdditions config additions) collection = listAt config collection ++ addedItems additions collection := by
  rw [listAt, lookup_withAdditions config additions h]

def SameObjects (a b : Option (Fields N)) : Prop :=
  Option.Rel (fun a b => sameValue env (.obj a) (.obj b) = true) a b

theorem sameValue_refl (value : Json N) : sameValue env value value = true :=
  Json.deepEqual_refl _

variable {env} {live desired rest : Fields N} {probes additions : List (GostAddition N)}

/-! ### What was added -/

section
variable {collection : String} {old next : List (String × Fields N)}

theorem Planned.mem_added (h : Planned env live desired additions collection old next) {addition : GostAddition N} :
    addition ∈ additions.filter (fun addition => addition.collection = collection) ↔
      addition.collection = collection ∧ old.lookup addition.name = none ∧
        next.lookup addition.name = some addition.object := by
  rw [h.added]
  exact mem_newObjects

theorem Planned.added_readable (h : Planned env live desired additions collection old next) :
    Readable (addedItems additions collection) := by
  have hname : ∀ addition ∈ additions.filter (fun addition => addition.collection = collection),
      stringAt addition.object "name" = addition.name :=
    fun addition hmem => (gostObjects_object h.desired_ok (h.mem_added.mp hmem).2.2).2.1
  refine ⟨?_, ?_, ?_⟩
  · intro item hitem
    obtain ⟨addition, _, rfl⟩ := List.mem_map.mp hitem
    rfl
  · intro item hitem
    obtain ⟨addition, hmem, rfl⟩ := List.mem_map.mp hitem
    rw [objectName_obj, hname addition hmem]
    exact (gostObjects_object h.desired_ok (h.mem_added.mp hmem).2.2).2.2
  · have hmap : (addedItems additions collection).map objectName =
        (additions.filter (fun addition => addition.collection = collection)).map GostAddition.name := by
      rw [addedItems, List.map_map]
      exact List.map_congr_left hname
    rw [hmap, h.added]
    exact newObjects_nodup collection old (gostObjects_nodup h.desired_ok)

theorem Planned.named_added (h : Planned env live desired additions collection old next) (name : String) :
    named (addedItems additions collection) name = if (old.lookup name).isSome then none else next.lookup name := by
  by_cases hfree : old.lookup name = none
  · rw [hfree, Option.isSome_none, if_neg Bool.false_ne_true]
    cases hnext : next.lookup name with
    | none =>
      refine named_eq_none.mpr fun hmem => ?_
      simp only [addedItems, List.map_map, List.mem_map, Function.comp_apply, objectName_obj] at hmem
      obtain ⟨addition, hadded, hname⟩ := hmem
      obtain ⟨_, _, hobject⟩ := h.mem_added.mp hadded
      rw [(gostObjects_object h.desired_ok hobject).2.1] at hname
      rw [← hname, hobject] at hnext
      cases hnext
    | some wanted =>
      have hmem : (⟨collection, name, wanted⟩ : GostAddition N) ∈
          additions.filter (fun addition => addition.collection = collection) := h.mem_added.mpr ⟨rfl, hfree, hnext⟩
      have hnamed := named_of_mem h.added_readable.nodup (List.mem_map_of_mem hmem)
      rw [objectName_obj, (gostObjects_object h.desired_ok hnext).2.1] at hnamed
      exact hnamed
  · rw [if_pos (Option.isSome_iff_ne_none.mpr hfree)]
    refine named_eq_none.mpr fun hmem => ?_
    simp only [addedItems, List.map_map, List.mem_map, Function.comp_apply, objectName_obj] at hmem
    obtain ⟨addition, hadded, hname⟩ := hmem
    obtain ⟨_, hold, hobject⟩ := h.mem_added.mp hadded
    rw [(gostObjects_object h.desired_ok hobject).2.1] at hname
    exact hfree (hname ▸ hold)

theorem Planned.reached (h : Planned env live desired additions collection old next) :
    ∃ got, collect collection [] (listAt live collection ++ addedItems additions collection) = .ok got ∧
      ∀ name, SameObjects env (got.lookup name) (next.lookup name) := by
  have hlive := gostObjects_readable h.live_ok
  have hread : Readable (listAt live collection ++ addedItems additions collection) := by
    refine ⟨fun item hitem => ?_, fun item hitem => ?_, ?_⟩
    · exact (List.mem_append.mp hitem).elim (hlive.object item) (h.added_readable.object item)
    · exact (List.mem_append.mp hitem).elim (hlive.valid item) (h.added_readable.valid item)
    · rw [List.map_append]
      refine List.nodup_append'.mpr ⟨hlive.nodup, h.added_readable.nodup, fun name hold hnew => ?_⟩
      -- a name on both sides would be one that the live objects have
      have hsome : named (listAt live collection) name ≠ none := fun hnone => named_eq_none.mp hnone hold
      have hlookup := gostObjects_lookup h.live_ok name
      refine named_eq_none.mp ?_ hnew
      rw [h.named_added, if_pos]
      rw [hlookup, Option.isSome_map]
      exact Option.isSome_iff_ne_none.mpr hsome
  obtain ⟨got, hgot, hlookup⟩ := collect_ok collection hread [] (by simp)
  refine ⟨got, hgot, fun name => ?_⟩
  rw [hlookup name, named_append, Option.map_or, ← gostObjects_lookup h.live_ok name, h.named_added]
  cases hold : old.lookup name with
  | some object =>
    obtain ⟨wanted, hnext, hsame⟩ := h.kept name object hold
    rw [hnext]
    exact Option.Rel.some hsame
  | none =>
    cases hnext : next.lookup name with
    | none => exact Option.Rel.none
    | some wanted =>
      simp only [List.lookup_nil, Option.or, Option.isSome_none, Bool.false_eq_true, if_false, Option.map_some,
        (gostObjects_object h.desired_ok hnext).1]
      exact Option.Rel.some (sameValue_refl env _)

end

/-! ### What a whole plan says -/

theorem planned_collections (hplan : planGostAdditions env live desired = .ok (additions, "")) :
    sectionsKept env live desired = true ∧ sectionsKept env desired live = true ∧
      (∀ addition ∈ additions, addition.collection ∈ gostCollections) ∧
      ∀ collection ∈ gostCollections, ∃ old next, Planned env live desired additions collection old next := by
  rw [planGostAdditions] at hplan
  by_cases hhealth : unhealthy live = true
  · simp [hhealth] at hplan
  by_cases hkept : sectionsKept env live desired = true
  · by_cases hkept' : sectionsKept env desired live = true
    · simp only [hhealth, hkept, hkept', Bool.not_true, Bool.false_eq_true, if_false] at hplan
      obtain ⟨hothers, hplanned⟩ := planCollections_planned env (by decide) (by simp) hplan
      refine ⟨hkept, hkept', fun addition hmem => ?_, hplanned⟩
      by_contra hother
      have hnil := hothers addition.collection hother
      exact List.filter_eq_nil_iff.mp hnil addition hmem (by simp)
    · simp [hhealth, hkept, hkept'] at hplan
  · simp [hhealth, hkept] at hplan

omit [DecidableEq N] [Zero N] in
theorem valueAt_of_notMem {key : String} (h : key ∉ Assoc.keys config) : valueAt config key = .null := by
  rw [valueAt, Assoc.lookup_eq_none.mpr h, Option.getD_none]

theorem planned_section (hplan : planGostAdditions env live desired = .ok (additions, "")) {key : String}
    (hkey : key ∉ ownSections) : sameValue env (valueAt live key) (valueAt desired key) = true := by
  obtain ⟨hlive, hdesired, _, _⟩ := planned_collections hplan
  by_cases hmem : key ∈ Assoc.keys live
  · obtain ⟨field, hfield, rfl⟩ := List.mem_map.mp hmem
    simpa [hkey] using List.all_eq_true.mp hlive field hfield
  · by_cases hmem' : key ∈ Assoc.keys desired
    · -- a section that only the desired configuration has is null there
      obtain ⟨field, hfield, rfl⟩ := List.mem_map.mp hmem'
      have hsame : sameValue env (valueAt desired field.1) (valueAt live field.1) = true := by
        simpa [hkey] using List.all_eq_true.mp hdesired field hfield
      rw [valueAt_of_notMem hmem] at hsame ⊢
      rw [sameValue] at hsame ⊢
      have hnull : normalizedGostValue env (.null : Json N) = .null := by simp [normalizedGostValue]
      rw [hnull] at hsame ⊢
      rw [Json.eq_null_of_deepEqual hsame, Json.deepEqual]
    · rw [valueAt_of_notMem hmem, valueAt_of_notMem hmem']
      exact sameValue_refl env _

section
variable {old next : List (String × Fields N)}

omit [Zero N] in
theorem planned_probes (hnext : gostObjects desired "services" = .ok next)
    (hprobes : planGostProbeReplacements live desired = (rest, probes)) :
    rest = Assoc.put live "services"
        (.arr ((listAt live "services").filter (fun raw => !replaced next (asMap raw)))) ∧
      probes = ((listAt live "services").filter (fun raw => replaced next (asMap raw))).map
        (fun raw => ⟨"services", objectName raw, withoutStatus (asMap raw)⟩) := by
  rw [planGostProbeReplacements, hnext] at hprobes
  simp only [Prod.mk.injEq] at hprobes
  exact ⟨hprobes.1.symm, hprobes.2.symm⟩

omit [Zero N] in
theorem replaced_not_desired {object : Fields N} (h : replaced next object = true) :
    next.lookup (stringAt object "name") = none := by
  simp only [replaced, Bool.and_eq_true, Option.isNone_iff_eq_none] at h
  exact h.1.2

theorem Planned.replaced_iff (h : Planned env rest desired additions "services" old next)
    (hprobes : planGostProbeReplacements live desired = (rest, probes)) {item : Json N}
    (hitem : item ∈ listAt live "services") :
    objectName item ∈ probes.map GostAddition.name ↔ replaced next (asMap item) = true := by
  obtain ⟨hrest, rfl⟩ := planned_probes h.desired_ok hprobes
  rw [List.map_map, List.mem_map]
  constructor
  · rintro ⟨probe, hprobe, hname⟩
    by_contra hstays
    have hmem : item ∈ listAt rest "services" := by
      rw [hrest, listAt_put_self]
      exact List.mem_filter.mpr ⟨hitem, by simpa using hstays⟩
    -- the item would be a live object that is desired under the name of a probe
    have hlookup := gostObjects_lookup h.live_ok (objectName item)
    rw [named_of_mem (gostObjects_readable h.live_ok).nodup hmem] at hlookup
    obtain ⟨wanted, hwanted, _⟩ := h.kept _ _ hlookup
    have hnone := replaced_not_desired (List.mem_filter.mp hprobe).2
    have hname : stringAt (asMap probe) "name" = objectName item := hname
    rw [hname, hwanted] at hnone
    cases hnone
  · intro hreplaced
    exact ⟨item, List.mem_filter.mpr ⟨hitem, hreplaced⟩, rfl⟩

theorem Planned.withoutProbes_eq (h : Planned env rest desired additions "services" old next)
    (hprobes : planGostProbeReplacements live desired = (rest, probes)) : withoutProbes live probes = rest := by
  have hfilter : (listAt live "services").filter (fun item => objectName item ∉ probes.map GostAddition.name) =
      (listAt live "services").filter (fun raw => !replaced next (asMap raw)) := by
    refine List.filter_congr fun item hitem => ?_
    rw [decide_not, Bool.not_inj_iff, Bool.eq_iff_iff, decide_eq_true_eq]
    exact h.replaced_iff hprobes hitem
  rw [withoutProbes, hfilter]
  exact (planned_probes h.desired_ok hprobes).1.symm

end

end

end

end ForwardX.Agent.Gost
