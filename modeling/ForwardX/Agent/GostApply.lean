import Mathlib.Algebra.Order.Ring.Nat
import ForwardX.Agent.GostPlan

/- A plan of additions over the API of GOST. A request that failed may have been served, so what
   the restore function knows is which probes may be gone and which additions may be there
   (`Undoing`); when it returns true, the objects are those of before. -/
namespace ForwardX.Agent.Gost
open Commands

section
variable {N : Type}

def GostAddition.key (addition : GostAddition N) : ObjectKey := ⟨addition.collection, addition.name⟩

def Request.key : Request N → ObjectKey
  | .post collection object => ⟨collection, stringAt object "name"⟩
  | .delete collection name => ⟨collection, name⟩

/-! ## What a request leaves -/

section
variable {objects after : Collections N} {answer : Option RequestError}

theorem serve_other (objects : Collections N) (request : Request N) {key : ObjectKey} (h : key ≠ request.key) :
    (serve objects request).1.lookup key = objects.lookup key := by
  cases request with
  | post collection object =>
    rw [serve]
    split
    · rfl
    · exact Assoc.lookup_put_ne _ h _
  | delete collection name =>
    rw [serve]
    split
    · exact Assoc.lookup_erase_ne _ h
    · rfl

theorem Serves.other {request : Request N} (h : Serves objects request answer after) {key : ObjectKey}
    (hkey : key ≠ request.key) : after.lookup key = objects.lookup key := by
  rcases h with hserve | ⟨err, _, _, _, rfl | rfl⟩
  · rw [← serve_other objects request hkey, hserve]
  · rfl
  · exact serve_other objects request hkey

theorem Serves.created {collection : String} {object : Fields N} (h : Serves objects (.post collection object) none after) :
    objects.lookup ⟨collection, stringAt object "name"⟩ = none ∧
      after.lookup ⟨collection, stringAt object "name"⟩ = some object := by
  rcases h with hserve | ⟨err, herr, _⟩
  · rw [serve] at hserve
    split at hserve
    · cases hserve
    · next hfree =>
      cases hserve
      exact ⟨Option.not_isSome_iff_eq_none.mp hfree, Assoc.lookup_put_self _ _ _⟩
  · cases herr

/-- An object that could not be created because it exists is there as it was. -/
theorem Serves.existed {collection : String} {object : Fields N} {err : RequestError}
    (h : Serves objects (.post collection object) (some err) after) (hcode : err.hasCode 40002 = true) :
    after = objects ∧ (objects.lookup ⟨collection, stringAt object "name"⟩).isSome = true := by
  rcases h with hserve | ⟨other, herr, hother, _⟩
  · rw [serve] at hserve
    split at hserve
    · next hexists =>
      cases hserve
      exact ⟨rfl, hexists⟩
    · cases hserve
  · obtain rfl := Option.some.inj herr
    rw [hcode] at hother
    cases hother

theorem serve_delete (objects : Collections N) (collection name : String) :
    (serve objects (.delete collection name)).1.lookup ⟨collection, name⟩ = none := by
  rw [serve]
  split
  · exact Assoc.lookup_erase_self _ _
  · next hmissing => exact Option.not_isSome_iff_eq_none.mp hmissing

/-- A deletion that is acknowledged, also as one of a missing object, leaves none. -/
theorem Serves.deleted {collection name : String} (h : Serves objects (.delete collection name) answer after)
    (hanswer : answer.all (RequestError.hasCode 40004) = true) : after.lookup ⟨collection, name⟩ = none := by
  rcases h with hserve | ⟨err, rfl, _, hcode, _⟩
  · rw [← serve_delete objects collection name, hserve]
  · rw [Option.all_some, hcode] at hanswer
    cases hanswer

theorem Serves.delete_cases {collection name : String} (h : Serves objects (.delete collection name) answer after) :
    after.lookup ⟨collection, name⟩ = none ∨ after.lookup ⟨collection, name⟩ = objects.lookup ⟨collection, name⟩ := by
  rcases h with hserve | ⟨err, _, _, _, rfl | rfl⟩
  · left
    rw [← serve_delete objects collection name, hserve]
  · exact Or.inr rfl
  · exact Or.inl (serve_delete objects collection name)

end

/-! ## The objects in the course of a plan -/

variable (before : Collections N)

/-- The probes are gone and the additions are there. -/
def Reached (removed added : List (GostAddition N)) (objects : Collections N) : Prop :=
  ∀ key, objects.lookup key = (if key ∈ removed.map GostAddition.key then none else before.lookup key).or
    ((added.find? (fun addition => addition.key = key)).map GostAddition.object)

/-- Only probes that were asked for may be gone, and only the attempted additions may be there. -/
def Undoing (removed attempted : List (GostAddition N)) (objects : Collections N) : Prop :=
  ∀ key, objects.lookup key = before.lookup key ∨ key ∈ attempted.map GostAddition.key ∨
    key ∈ removed.map GostAddition.key ∧ objects.lookup key = none

/-- The probes are held as they are known, and none of the additions is. -/
structure Applicable (probes additions : List (GostAddition N)) : Prop where
  service : ∀ probe ∈ probes, probe.collection = "services" ∧ stringAt probe.object "name" = probe.name
  held : ∀ probe ∈ probes, before.lookup probe.key = some probe.object
  named : ∀ addition ∈ additions, stringAt addition.object "name" = addition.name
  free : ∀ addition ∈ additions, before.lookup addition.key = none

variable {before} {removed attempted added : List (GostAddition N)} {objects after : Collections N}

theorem Reached.start : Reached before [] [] before := by
  intro key
  simp

theorem Reached.undoing (h : Reached before removed added objects) : Undoing before removed added objects := by
  intro key
  have hkey := h key
  cases hfind : added.find? (fun addition => addition.key = key) with
  | some addition =>
    right; left
    exact List.mem_map.mpr ⟨addition, List.mem_of_find?_eq_some hfind, by simpa using List.find?_some hfind⟩
  | none =>
    rw [hfind, Option.map_none, Option.or_none] at hkey
    by_cases hremoved : key ∈ removed.map GostAddition.key
    · right; right
      exact ⟨hremoved, by rw [hkey, if_pos hremoved]⟩
    · left
      rw [hkey, if_neg hremoved]

theorem Undoing.attempt (h : Undoing before removed attempted objects) {item : GostAddition N}
    (hother : ∀ key, key ≠ item.key → after.lookup key = objects.lookup key) :
    Undoing before removed (attempted ++ [item]) after := by
  intro key
  by_cases hkey : key = item.key
  · right; left
    simp [hkey]
  · rw [hother key hkey, List.map_append, List.mem_append]
    exact (h key).imp_right (Or.imp_left Or.inl)

theorem Undoing.remove (h : Undoing before removed attempted objects) {probe : GostAddition N}
    (hother : ∀ key, key ≠ probe.key → after.lookup key = objects.lookup key)
    (hprobe : after.lookup probe.key = none ∨ after.lookup probe.key = objects.lookup probe.key) :
    Undoing before (removed ++ [probe]) attempted after := by
  intro key
  rw [List.map_append, List.mem_append]
  by_cases hkey : key = probe.key
  · subst hkey
    rcases hprobe with hnone | hsame
    · exact Or.inr (Or.inr ⟨Or.inr (by simp), hnone⟩)
    · rw [hsame]
      exact (h _).imp_right (Or.imp_right (And.imp_left Or.inl))
  · rw [hother key hkey]
    exact (h key).imp_right (Or.imp_right (And.imp_left Or.inl))

theorem Reached.attempt (h : Reached before removed attempted objects) {item : GostAddition N}
    (hother : ∀ key, key ≠ item.key → after.lookup key = objects.lookup key)
    (hfree : objects.lookup item.key = none) (hmade : after.lookup item.key = some item.object) :
    Reached before removed (attempted ++ [item]) after := by
  intro key
  have hbefore := h key
  rw [List.find?_append]
  by_cases hkey : key = item.key
  · subst hkey
    rw [hfree, eq_comm, Option.or_eq_none_iff, Option.map_eq_none_iff] at hbefore
    rw [hmade, hbefore.1, hbefore.2]
    simp
  · have hne : ¬item.key = key := fun heq => hkey heq.symm
    rw [hother key hkey, hbefore]
    simp [hne]

theorem Reached.remove (h : Reached before removed [] objects) {probe : GostAddition N}
    (hother : ∀ key, key ≠ probe.key → after.lookup key = objects.lookup key)
    (hgone : after.lookup probe.key = none) : Reached before (removed ++ [probe]) [] after := by
  intro key
  have hbefore := h key
  by_cases hkey : key = probe.key
  · subst hkey
    simp [hgone]
  · rw [hother key hkey, hbefore]
    simp [hkey]

/-! ## The runs -/

variable (before) in
/-- How a plan ends: it is reached, or what can be undone is known. -/
def Ends (probes additions : List (GostAddition N)) (applied : Applied N) (objects : Collections N) : Prop :=
  (applied.err = none ∧ Reached before probes additions objects) ∨
    (applied.err ≠ none ∧ Undoing before applied.removed applied.attempted objects ∧
      applied.removed ⊆ probes ∧ applied.attempted ⊆ additions)

variable {probes additions : List (GostAddition N)} {rest : List (GostAddition N)}

theorem applyGostAdditions_ends (hnamed : ∀ addition ∈ rest, stringAt addition.object "name" = addition.name)
    (h : Reached before probes attempted objects) :
    Always Serves (fun _ => True) (Ends before probes (attempted ++ rest)) (applyGostAdditions probes attempted rest)
      objects := by
  induction rest generalizing attempted objects with
  | nil =>
    refine ⟨trivial, Or.inl ⟨rfl, ?_⟩⟩
    rw [List.append_nil]
    exact h
  | cons item rest ih =>
    have hkey : Request.key (.post item.collection item.object) = item.key := by
      rw [Request.key, hnamed item List.mem_cons_self, GostAddition.key]
    refine ⟨trivial, fun answer after hserve => ?_⟩
    have hother : ∀ key, key ≠ item.key → after.lookup key = objects.lookup key :=
      fun key hne => hserve.other (hkey.symm ▸ hne)
    cases answer with
    | none =>
      obtain ⟨hfree, hmade⟩ := hserve.created
      rw [hnamed item List.mem_cons_self] at hfree hmade
      rw [List.append_cons]
      exact ih (fun addition hmem => hnamed addition (List.mem_cons_of_mem _ hmem)) (h.attempt hother hfree hmade)
    | some err =>
      by_cases hcode : err.hasCode 40002 = true
      · -- the object is of someone else and stays
        obtain ⟨rfl, _⟩ := hserve.existed hcode
        simp only [hcode, if_true]
        exact ⟨trivial, Or.inr ⟨by simp, h.undoing, List.Subset.refl _, List.subset_append_left _ _⟩⟩
      · simp only [hcode, Bool.false_eq_true, if_false]
        refine ⟨trivial, Or.inr ⟨by simp, h.undoing.attempt hother, List.Subset.refl _, ?_⟩⟩
        exact List.append_subset.mpr ⟨List.subset_append_left _ _, by simp⟩

theorem applyGostProbeReplacements_ends (hservice : ∀ probe ∈ rest, probe.collection = "services")
    (hnamed : ∀ addition ∈ additions, stringAt addition.object "name" = addition.name)
    (h : Reached before removed [] objects) : Always Serves (fun _ => True) (Ends before (removed ++ rest) additions)
      (applyGostProbeReplacements additions removed rest) objects := by
  induction rest generalizing removed objects with
  | nil =>
    rw [List.append_nil]
    exact applyGostAdditions_ends hnamed h
  | cons probe rest ih =>
    have hkey : Request.key (.delete "services" probe.name : Request N) = probe.key := by
      rw [Request.key, GostAddition.key, hservice probe List.mem_cons_self]
    refine ⟨trivial, fun answer after hserve => ?_⟩
    have hother : ∀ key, key ≠ probe.key → after.lookup key = objects.lookup key :=
      fun key hne => hserve.other (hkey.symm ▸ hne)
    cases answer with
    | none =>
      have hgone := hserve.deleted rfl
      rw [← hservice probe List.mem_cons_self] at hgone
      rw [List.append_cons]
      exact ih (fun probe hmem => hservice probe (List.mem_cons_of_mem _ hmem)) (h.remove hother hgone)
    | some err =>
      have hcases := hserve.delete_cases
      rw [← hservice probe List.mem_cons_self] at hcases
      refine ⟨trivial, Or.inr ⟨by simp, h.undoing.remove hother hcases, ?_, by simp⟩⟩
      exact List.append_subset.mpr ⟨List.subset_append_left _ _, by simp⟩

theorem deleteAdditions_undoes (ok : Bool) (hfree : ∀ addition ∈ rest, before.lookup addition.key = none)
    (h : ok = true → Undoing before removed rest objects) :
    Always Serves (fun _ => True) (fun ok after => ok = true → Undoing before removed [] after)
      (deleteAdditions ok rest) objects := by
  induction rest generalizing ok objects with
  | nil => exact ⟨trivial, h⟩
  | cons item rest ih =>
    refine ⟨trivial, fun answer after hserve => ?_⟩
    refine ih _ (fun addition hmem => hfree addition (List.mem_cons_of_mem _ hmem)) fun hok key => ?_
    rw [Bool.and_eq_true] at hok
    by_cases hkey : key = item.key
    · left
      rw [hkey, hfree item List.mem_cons_self]
      exact hserve.deleted hok.2
    · rw [hserve.other hkey]
      rcases h hok.1 key with hsame | hattempted | hremoved
      · exact Or.inl hsame
      · rw [List.map_cons, List.mem_cons] at hattempted
        exact Or.inr (Or.inl (hattempted.resolve_left hkey))
      · exact Or.inr (Or.inr hremoved)

theorem postProbes_undoes {ok : Bool}
    (hnamed : ∀ probe ∈ rest, probe.collection = "services" ∧ stringAt probe.object "name" = probe.name)
    (hheld : ∀ probe ∈ rest, before.lookup probe.key = some probe.object)
    (h : ok = true → Undoing before rest [] objects) :
    Always Serves (fun _ => True) (fun ok after => ok = true → ∀ key, after.lookup key = before.lookup key)
      (postProbes ok rest) objects := by
  induction rest generalizing ok objects with
  | nil =>
    refine ⟨trivial, fun hok key => ?_⟩
    rcases h hok key with hsame | hattempted | hremoved
    · exact hsame
    · cases hattempted
    · cases hremoved.1
  | cons probe rest ih =>
    obtain ⟨hservice, hname⟩ := hnamed probe List.mem_cons_self
    have hkey : Request.key (.post "services" probe.object) = probe.key := by
      rw [Request.key, GostAddition.key, hservice, hname]
    refine ⟨trivial, fun answer after hserve => ?_⟩
    refine ih (fun probe hmem => hnamed probe (List.mem_cons_of_mem _ hmem))
      (fun probe hmem => hheld probe (List.mem_cons_of_mem _ hmem)) fun hok key => ?_
    rw [Bool.and_eq_true] at hok
    by_cases hprobe : key = probe.key
    · left
      rw [hprobe, hheld probe List.mem_cons_self]
      cases answer with
      | none => exact hkey ▸ hserve.created.2
      | some err =>
        -- it is there, so it was not removed
        obtain ⟨rfl, hexists⟩ := hserve.existed hok.2
        have hexists : (after.lookup probe.key).isSome = true := hkey ▸ hexists
        rcases h hok.1 probe.key with hsame | hattempted | ⟨_, hnone⟩
        · rw [hsame, hheld probe List.mem_cons_self]
        · cases hattempted
        · rw [hnone] at hexists
          cases hexists
    · rw [hserve.other (hkey.symm ▸ hprobe)]
      rcases h hok.1 key with hsame | hattempted | ⟨hremoved, hnone⟩
      · exact Or.inl hsame
      · cases hattempted
      · rw [List.map_cons, List.mem_cons] at hremoved
        exact Or.inr (Or.inr ⟨hremoved.resolve_left hprobe, hnone⟩)

theorem restore_undoes (happ : Applicable before probes additions) {applied : Applied N}
    (hremoved : applied.removed ⊆ probes) (hattempted : applied.attempted ⊆ additions)
    (h : Undoing before applied.removed applied.attempted objects) :
    Always Serves (fun _ => True) (fun ok after => ok = true → ∀ key, after.lookup key = before.lookup key)
      (restore applied) objects := by
  have hreverse : Undoing before applied.removed applied.attempted.reverse objects := by
    intro key
    rw [List.map_reverse, List.mem_reverse]
    exact h key
  have hdeletes := deleteAdditions_undoes true
    (fun addition hmem => happ.free addition (hattempted (List.mem_reverse.mp hmem))) fun _ => hreverse
  refine Always.bind (hdeletes.mono fun ok after _ hundoing => ?_)
  exact postProbes_undoes (fun probe hmem => happ.service probe (hremoved hmem))
    (fun probe hmem => happ.held probe (hremoved hmem)) hundoing

end

/-! ## The live configuration -/

section
variable {N : Type}

def shown (collection : String) (object : Fields N) : Fields N :=
  if collection = "services" then withoutStatus object else object

/-- The configuration is that of an API that holds the objects. -/
structure Shows (objects : Collections N) (config : Fields N) : Prop where
  names : ∀ collection ∈ gostCollections, ((listAt config collection).map objectName).Nodup
  lookup : ∀ collection name, objects.lookup ⟨collection, name⟩ =
    if collection ∈ gostCollections then (named (listAt config collection) name).map (shown collection) else none

theorem shown_copy {collection : String} {object : Fields N} (h : copyObject collection object = object) :
    shown collection object = object := by
  rw [shown]
  split
  · next hservices =>
    subst hservices
    rw [← h, withoutStatus_copyObject]
  · rfl

/-- The objects of an API that shows the configuration. -/
def heldBy (config : Fields N) : Collections N :=
  gostCollections.flatMap fun collection =>
    (listAt config collection).map fun item => (⟨collection, objectName item⟩, shown collection (asMap item))

theorem lookup_items (items : List (Json N)) (collection name : String) :
    (items.map fun item => ((⟨collection, objectName item⟩ : ObjectKey), shown collection (asMap item))).lookup
      ⟨collection, name⟩ = (named items name).map (shown collection) := by
  induction items with
  | nil => rfl
  | cons item rest ih =>
    rw [List.map_cons, named_cons]
    by_cases hname : objectName item = name
    · rw [if_pos hname, hname, List.lookup_cons_self]
      rfl
    · have hne : ((⟨collection, name⟩ : ObjectKey) == ⟨collection, objectName item⟩) = false := by
        simpa using Ne.symm hname
      rw [if_neg hname, List.lookup_cons, hne]
      exact ih

theorem lookup_items_ne (items : List (Json N)) {collection other : String} (h : other ≠ collection) (name : String) :
    (items.map fun item => ((⟨collection, objectName item⟩ : ObjectKey), shown collection (asMap item))).lookup
      ⟨other, name⟩ = none := by
  rw [Assoc.lookup_eq_none]
  intro hmem
  simp only [Assoc.keys, List.map_map, List.mem_map, Function.comp_apply, ObjectKey.mk.injEq] at hmem
  obtain ⟨_, _, hcollection, _⟩ := hmem
  exact h hcollection.symm

theorem shows_heldBy {config : Fields N}
    (hnames : ∀ collection ∈ gostCollections, ((listAt config collection).map objectName).Nodup) :
    Shows (heldBy config) config := by
  refine ⟨hnames, fun collection name => ?_⟩
  simp only [heldBy, gostCollections, List.flatMap_cons, List.flatMap_nil, List.append_nil, List.lookup_append,
    List.mem_cons, List.not_mem_nil, or_false]
  by_cases hlimiters : collection = "limiters"
  · subst hlimiters
    rw [lookup_items, lookup_items_ne _ (by decide), lookup_items_ne _ (by decide)]
    simp
  rw [lookup_items_ne _ hlimiters]
  by_cases hchains : collection = "chains"
  · subst hchains
    rw [lookup_items, lookup_items_ne _ (by decide)]
    simp
  rw [lookup_items_ne _ hchains]
  by_cases hservices : collection = "services"
  · subst hservices
    rw [lookup_items]
    simp
  · rw [lookup_items_ne _ hservices]
    simp [hlimiters, hchains, hservices]

theorem named_addedItems {additions : List (GostAddition N)}
    (hnamed : ∀ addition ∈ additions, stringAt addition.object "name" = addition.name) (collection name : String) :
    named (addedItems additions collection) name =
      (additions.find? (fun addition => addition.key = ⟨collection, name⟩)).map GostAddition.object := by
  induction additions with
  | nil => rfl
  | cons addition rest ih =>
    have ih := ih fun addition hmem => hnamed addition (List.mem_cons_of_mem _ hmem)
    by_cases hcollection : addition.collection = collection
    · have hitems : addedItems (addition :: rest) collection = .obj addition.object :: addedItems rest collection := by
        simp [addedItems, hcollection]
      rw [hitems, named_cons, objectName_obj, hnamed addition List.mem_cons_self]
      by_cases hname : addition.name = name
      · rw [if_pos hname, List.find?_cons_of_pos (by simp [GostAddition.key, hcollection, hname])]
        rfl
      · rw [if_neg hname, List.find?_cons_of_neg (by simp [GostAddition.key, hname])]
        exact ih
    · have hitems : addedItems (addition :: rest) collection = addedItems rest collection := by
        simp [addedItems, hcollection]
      rw [hitems, List.find?_cons_of_neg (by simp [GostAddition.key, hcollection])]
      exact ih

theorem named_without (items : List (Json N)) (names : List String) (name : String) :
    named (items.filter (fun item => objectName item ∉ names)) name = if name ∈ names then none else named items name := by
  rw [named, named, List.find?_filter]
  split
  · next hmem =>
    rw [Option.map_eq_none_iff, List.find?_eq_none]
    intro item _ hitem
    simp only [decide_eq_true_eq] at hitem
    exact hitem.1 (hitem.2 ▸ hmem)
  · next hmem =>
    congr 2
    funext item
    by_cases hname : objectName item = name
    · simp [hname, hmem]
    · simp [hname]

section
variable [DecidableEq N] [Zero N] {env : Env N} {live desired rest : Fields N} {probes additions : List (GostAddition N)}
  {objects after : Collections N}

theorem Shows.applicable (h : Shows objects live) (hprobes : planGostProbeReplacements live desired = (rest, probes))
    (hplan : planGostAdditions env rest desired = .ok (additions, "")) : Applicable objects probes additions := by
  obtain ⟨_, _, hcollections, hplanned⟩ := planned_collections hplan
  obtain ⟨_, next, hservices⟩ := hplanned "services" (by decide)
  obtain ⟨hrest, hmap⟩ := planned_probes hservices.desired_ok hprobes
  have hprobe : ∀ probe ∈ probes, ∃ raw ∈ listAt live "services",
      probe = ⟨"services", objectName raw, withoutStatus (asMap raw)⟩ := by
    rw [hmap]
    intro probe hmem
    obtain ⟨raw, hraw, rfl⟩ := List.mem_map.mp hmem
    exact ⟨raw, (List.mem_filter.mp hraw).1, rfl⟩
  refine ⟨?_, ?_, ?_, ?_⟩
  · intro probe hmem
    obtain ⟨raw, _, rfl⟩ := hprobe probe hmem
    refine ⟨rfl, ?_⟩
    rw [stringAt, lookup_withoutStatus _ (by decide)]
    rfl
  · intro probe hmem
    obtain ⟨raw, hraw, rfl⟩ := hprobe probe hmem
    have hmem : "services" ∈ gostCollections := by decide
    rw [GostAddition.key, h.lookup, if_pos hmem, named_of_mem (h.names _ hmem) hraw]
    rfl
  · intro addition hmem
    obtain ⟨old, next, hplan⟩ := hplanned _ (hcollections addition hmem)
    have hadded := hplan.mem_added.mp (List.mem_filter.mpr ⟨hmem, decide_eq_true rfl⟩)
    exact (gostObjects_object hplan.desired_ok hadded.2.2).2.1
  · intro addition hmem
    obtain ⟨old, wanted, hplan⟩ := hplanned _ (hcollections addition hmem)
    obtain ⟨_, hold, hnext⟩ := hplan.mem_added.mp (List.mem_filter.mpr ⟨hmem, decide_eq_true rfl⟩)
    rw [gostObjects_lookup hplan.live_ok, Option.map_eq_none_iff] at hold
    rw [GostAddition.key, h.lookup, if_pos (hcollections addition hmem), Option.map_eq_none_iff]
    rw [← hservices.withoutProbes_eq hprobes, withoutProbes] at hold
    by_cases hcollection : addition.collection = "services"
    · rw [hcollection] at hold hplan ⊢
      rw [listAt_put_self, named_without] at hold
      by_cases hname : addition.name ∈ probes.map GostAddition.name
      · -- an addition would be a probe that is replaced, which is not desired
        obtain ⟨probe, hmem', hname⟩ := List.mem_map.mp hname
        rw [hmap] at hmem'
        obtain ⟨raw, hraw, rfl⟩ := List.mem_map.mp hmem'
        have hnone := replaced_not_desired (List.mem_filter.mp hraw).2
        obtain rfl : next = wanted := Except.ok.inj (hservices.desired_ok.symm.trans hplan.desired_ok)
        have hname : stringAt (asMap raw) "name" = addition.name := hname
        rw [hname, hnext] at hnone
        cases hnone
      · rwa [if_neg hname] at hold
    · rwa [listAt_put_ne _ hcollection] at hold

omit [DecidableEq N] [Zero N] in
theorem Applicable.mem_key (h : Applicable objects probes additions) (name : String) :
    ⟨"services", name⟩ ∈ probes.map GostAddition.key ↔ name ∈ probes.map GostAddition.name := by
  rw [List.mem_map, List.mem_map]
  constructor
  · rintro ⟨probe, hprobe, hkey⟩
    rw [GostAddition.key, ObjectKey.mk.injEq] at hkey
    exact ⟨probe, hprobe, hkey.2⟩
  · rintro ⟨probe, hprobe, rfl⟩
    exact ⟨probe, hprobe, by rw [GostAddition.key, (h.service probe hprobe).1]⟩

/-- The objects that a plan leads to are those of the configuration that it leads to. -/
theorem Shows.reached (h : Shows objects live) (hprobes : planGostProbeReplacements live desired = (rest, probes))
    (hplan : planGostAdditions env rest desired = .ok (additions, "")) (hreached : Reached objects probes additions after) :
    Shows after (withAdditions (withoutProbes live probes) additions) := by
  have happ := h.applicable hprobes hplan
  obtain ⟨_, _, hcollections, hplanned⟩ := planned_collections hplan
  obtain ⟨_, next, hservices⟩ := hplanned "services" (by decide)
  have hwithout := hservices.withoutProbes_eq hprobes
  refine ⟨fun collection hmem => ?_, fun collection name => ?_⟩
  · obtain ⟨_, _, hcollection⟩ := hplanned collection hmem
    obtain ⟨got, hgot, _⟩ := hcollection.reached
    rw [hwithout, listAt_withAdditions _ _ hmem]
    exact (collect_readable hgot).1.nodup
  · rw [hreached, h.lookup]
    by_cases hmem : collection ∈ gostCollections
    · obtain ⟨old, wanted, hcollection⟩ := hplanned collection hmem
      rw [if_pos hmem, if_pos hmem, listAt_withAdditions _ _ hmem, named_append, Option.map_or]
      congr 1
      · by_cases hcollection' : collection = "services"
        · subst hcollection'
          rw [withoutProbes, listAt_put_self, named_without]
          by_cases hname : name ∈ probes.map GostAddition.name
          · rw [if_pos ((happ.mem_key name).mpr hname), if_pos hname, Option.map_none]
          · rw [if_neg (mt (happ.mem_key name).mp hname), if_neg hname]
        · rw [withoutProbes, listAt_put_ne _ hcollection', if_neg]
          intro hkey
          obtain ⟨probe, hprobe, hkey⟩ := List.mem_map.mp hkey
          rw [GostAddition.key, ObjectKey.mk.injEq, (happ.service probe hprobe).1] at hkey
          exact hcollection' hkey.1.symm
      · rw [named_addedItems happ.named]
        cases hfind : additions.find? (fun addition => addition.key = ⟨collection, name⟩) with
        | none => rfl
        | some addition =>
          have hkey : addition.key = ⟨collection, name⟩ := by simpa using List.find?_some hfind
          rw [GostAddition.key, ObjectKey.mk.injEq] at hkey
          have hadded := hcollection.mem_added.mp
            (List.mem_filter.mpr ⟨List.mem_of_find?_eq_some hfind, decide_eq_true hkey.1⟩)
          simp only [Option.map_some]
          rw [shown_copy (gostObjects_object hcollection.desired_ok hadded.2.2).1]
    · have hnone : additions.find? (fun addition => addition.key = ⟨collection, name⟩) = none := by
        rw [List.find?_eq_none]
        intro addition haddition hkey
        have hkey : addition.key = ⟨collection, name⟩ := of_decide_eq_true hkey
        rw [GostAddition.key, ObjectKey.mk.injEq] at hkey
        exact hmem (hkey.1 ▸ hcollections addition haddition)
      rw [if_neg hmem, if_neg hmem, hnone]
      simp

/-- A plan without a reason leads from the live configuration to the desired one, and keeps every
live object but the probes. Applied to an API that shows the live configuration, it leads there,
or to objects from which a restore function that returns true finds back. -/
theorem additive_sync_sound (hprobes : planGostProbeReplacements live desired = (rest, probes))
    (hplan : planGostAdditions env rest desired = .ok (additions, "")) :
    (∀ collection ∈ gostCollections, ∃ got next,
      gostObjects (withAdditions (withoutProbes live probes) additions) collection = .ok got ∧
        gostObjects desired collection = .ok next ∧ ∀ name, SameObjects env (got.lookup name) (next.lookup name)) ∧
    (∀ key, key ∉ ownSections →
      sameValue env (valueAt (withAdditions (withoutProbes live probes) additions) key) (valueAt desired key) = true) ∧
    (∀ collection ∈ gostCollections, ∃ next, gostObjects desired collection = .ok next ∧
      ∀ item ∈ listAt live collection,
        (collection = "services" ∧ ⟨"services", objectName item, withoutStatus (asMap item)⟩ ∈ probes) ∨
          ∃ wanted, next.lookup (objectName item) = some wanted ∧
            sameValue env (.obj (copyObject collection (asMap item))) (.obj wanted) = true) ∧
    ∀ before, Shows before live → ∀ path applied after,
      Execution Serves (applyGostProbeReplacements additions [] probes) before path applied after →
        (applied.err = none ∧ Shows after (withAdditions (withoutProbes live probes) additions)) ∨
          (applied.err ≠ none ∧ ∀ path undone, Execution Serves (restore applied) after path true undone →
            ∀ key, undone.lookup key = before.lookup key) := by
  obtain ⟨_, _, hcollections, hplanned⟩ := planned_collections hplan
  obtain ⟨_, next, hservices⟩ := hplanned "services" (by decide)
  have hwithout := hservices.withoutProbes_eq hprobes
  obtain ⟨hrest, hmap⟩ := planned_probes hservices.desired_ok hprobes
  refine ⟨fun collection hmem => ?_, fun key hkey => ?_, fun collection hmem => ?_, fun before hshows => ?_⟩
  · obtain ⟨old, wanted, hcollection⟩ := hplanned collection hmem
    obtain ⟨got, hgot, hsame⟩ := hcollection.reached
    refine ⟨got, wanted, ?_, hcollection.desired_ok, hsame⟩
    rw [hwithout, gostObjects, lookup_withAdditions _ _ hmem]
    exact hgot
  · have hother : key ∉ gostCollections := fun hmem => hkey (by
      simp only [gostCollections, ownSections, List.mem_cons, List.not_mem_nil, or_false] at hmem ⊢
      rcases hmem with rfl | rfl | rfl <;> simp)
    rw [hwithout, valueAt, lookup_withAdditions_of_notMem _ _ hother]
    exact planned_section hplan hkey
  · obtain ⟨old, wanted, hcollection⟩ := hplanned collection hmem
    refine ⟨wanted, hcollection.desired_ok, fun item hitem => ?_⟩
    by_cases hprobe : collection = "services" ∧ replaced next (asMap item) = true
    · left
      refine ⟨hprobe.1, ?_⟩
      rw [hmap]
      exact List.mem_map.mpr ⟨item, List.mem_filter.mpr ⟨hprobe.1 ▸ hitem, hprobe.2⟩, rfl⟩
    · -- the item is one of those that the additions are planned for
      right
      have hstays : item ∈ listAt rest collection := by
        by_cases heq : collection = "services"
        · subst heq
          rw [hrest, listAt_put_self]
          exact List.mem_filter.mpr ⟨hitem, by simpa using hprobe⟩
        · rw [hrest, listAt_put_ne _ heq]
          exact hitem
      have hlookup := gostObjects_lookup hcollection.live_ok (objectName item)
      rw [named_of_mem (gostObjects_readable hcollection.live_ok).nodup hstays] at hlookup
      exact hcollection.kept _ _ hlookup
  · have happ := hshows.applicable hprobes hplan
    intro path applied after hrun
    have hends := (applyGostProbeReplacements_ends (fun probe hmem => (happ.service probe hmem).1) happ.named
      Reached.start).sound hrun
    rcases hends.2 with ⟨herr, hreached⟩ | ⟨herr, hundoing, hremoved, hattempted⟩
    · exact Or.inl ⟨herr, hshows.reached hprobes hplan hreached⟩
    · refine Or.inr ⟨herr, fun path undone hrestore => ?_⟩
      exact ((restore_undoes happ hremoved hattempted hundoing).sound hrestore).2 rfl

end

end

/-! ## A probe that makes way for an exit -/

def exampleEnv : Env Nat where
  toLower := fun text => text.map Char.toLower
  parseDuration := fun text => if text = "30s" then some 30000000000 else none

def exampleProbe : Fields Nat :=
  [("name", .str "fwx-tunnel-probe-5-9000"), ("addr", .str ":9000"), ("handler", .obj [("type", .str "tcp")]),
    ("forwarder", .obj [("nodes", .arr [.obj [("name", .str "idle"), ("addr", .str "127.0.0.1:9")]])])]

def exampleRule (failTimeout : Json Nat) (hints : Fields Nat) : Fields Nat :=
  [("name", .str "rule-80"), ("addr", .str ":80"),
    ("forwarder", .obj [("nodes", .arr [.obj ([("addr", .str "10.0.0.1:80")] ++ hints)]),
      ("selector", .obj [("failTimeout", failTimeout)])])]

def exampleLive : Fields Nat :=
  [("log", .obj [("level", .str "info")]),
    ("services", .arr [.obj (exampleProbe ++ [("status", .obj [("state", .str "ready")])]),
      .obj (exampleRule (.num 30000000000) [] ++ [("status", .obj [("state", .str "ready")])])])]

def exampleDesired : Fields Nat :=
  [("log", .obj [("level", .str "info")]),
    ("limiters", .arr [.obj [("name", .str "limiter-5"), ("limits", .arr [.str "$ 1MB 1MB"])]]),
    ("services", .arr [.obj (exampleRule (.str "30s") [("connector", .obj [("type", .str "tcp")])]),
      .obj [("name", .str "fwx-tunnel-exit-5-1"), ("addr", .str ":9000"), ("handler", .obj [("type", .str "relay")])]])]

theorem exit_replaces_probe : ∃ rest probes additions,
    planGostProbeReplacements exampleLive exampleDesired = (rest, probes) ∧
      planGostAdditions exampleEnv rest exampleDesired = .ok (additions, "") ∧
      probes.map GostAddition.name = ["fwx-tunnel-probe-5-9000"] ∧
      additions.map GostAddition.name = ["limiter-5", "fwx-tunnel-exit-5-1"] ∧
      ∀ path applied after,
        Execution Serves (applyGostProbeReplacements additions [] probes) (heldBy exampleLive) path applied after →
          (applied.err = none ∧ Shows after (withAdditions (withoutProbes exampleLive probes) additions)) ∨
            (applied.err ≠ none ∧ ∀ path undone, Execution Serves (restore applied) after path true undone →
              ∀ key, undone.lookup key = (heldBy exampleLive).lookup key) := by
  have hcheck : (planGostAdditions exampleEnv (planGostProbeReplacements exampleLive exampleDesired).1
      exampleDesired).toOption.any (fun plan =>
        plan.2 = "" && plan.1.map GostAddition.name = ["limiter-5", "fwx-tunnel-exit-5-1"]) = true := by
    decide +kernel
  have hprobes : (planGostProbeReplacements exampleLive exampleDesired).2.map GostAddition.name =
      ["fwx-tunnel-probe-5-9000"] := by
    decide +kernel
  have hnames : ∀ collection ∈ gostCollections, ((listAt exampleLive collection).map objectName).Nodup := by
    decide +kernel
  obtain ⟨rest, probes, hreplaced⟩ : ∃ rest probes,
      planGostProbeReplacements exampleLive exampleDesired = (rest, probes) := ⟨_, _, rfl⟩
  rw [hreplaced] at hcheck hprobes
  cases hplan : planGostAdditions exampleEnv rest exampleDesired with
  | error err =>
    rw [hplan] at hcheck
    cases hcheck
  | ok plan =>
    obtain ⟨additions, reason⟩ := plan
    rw [hplan] at hcheck
    simp only [Except.toOption, Option.any_some, Bool.and_eq_true, decide_eq_true_eq] at hcheck
    obtain ⟨rfl, hadditions⟩ := hcheck
    refine ⟨rest, probes, additions, hreplaced, hplan, hprobes, hadditions, ?_⟩
    exact (additive_sync_sound hreplaced hplan).2.2.2 (heldBy exampleLive) (shows_heldBy hnames)

end ForwardX.Agent.Gost
