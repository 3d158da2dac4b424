import EntityQuery.Entity.Directory
import EntityQuery.Proofs.Entity.Fields
import EntityQuery.Proofs.Http.Routing
import Mathlib.Data.List.Induction
import Mathlib.Data.List.TakeWhile
/-!
# Building a service

A service is built by calls that register entity types or replace the settings, in any order. What
it answers depends on the last settings and on the last source of each type alone: a type that is
registered again gets another source, and the limits are those of the settings that come last, also
for types that have been registered before. In which order the table of registrations is gone
through is no matter.

The types have different names, and their plurals are single segments other than those that tell
that the service is alive.
-/

namespace EntityQuery.Http

/-- A call that adds to a service, over a family of entity types. -/
inductive Call (m : Type → Type) {ι : Type} (α : ι → Type)
  | withSettings (settings : Settings)
  | register (i : ι) (source : Listing.Source m (α i))

section Calls

variable {m : Type → Type} {ι : Type} {α : ι → Type}

namespace Call

def settings? : Call m α → Option Settings
  | withSettings settings => some settings
  | register _ _ => none

def source? [DecidableEq ι] (i : ι) : Call m α → Option (Listing.Source m (α i))
  | withSettings _ => none
  | register j source => if h : j = i then some (h ▸ source) else none

end Call

/-- The settings that are given last, or the default ones. -/
def lastSettings (calls : List (Call m α)) : Settings :=
  (calls.filterMap Call.settings?).getLast?.getD {}

def lastSource? [DecidableEq ι] (i : ι) (calls : List (Call m α)) :
    Option (Listing.Source m (α i)) :=
  (calls.filterMap (Call.source? i)).getLast?

@[simp] theorem lastSettings_withSettings (calls : List (Call m α)) (settings : Settings) :
    lastSettings (calls ++ [.withSettings settings]) = settings := by
  simp [lastSettings, Call.settings?]

@[simp] theorem lastSettings_register (calls : List (Call m α)) (i : ι)
    (source : Listing.Source m (α i)) :
    lastSettings (calls ++ [.register i source]) = lastSettings calls := by
  simp [lastSettings, Call.settings?]

section Sources

variable [DecidableEq ι] {i j : ι} (calls : List (Call m α))

@[simp] theorem lastSource?_withSettings (i : ι) (settings : Settings) :
    lastSource? i (calls ++ [.withSettings settings]) = lastSource? i calls := by
  simp [lastSource?, Call.source?]

@[simp] theorem lastSource?_register_self (source : Listing.Source m (α i)) :
    lastSource? i (calls ++ [.register i source]) = some source := by
  simp [lastSource?, Call.source?]

theorem lastSource?_register_of_ne (h : j ≠ i) (source : Listing.Source m (α j)) :
    lastSource? i (calls ++ [.register j source]) = lastSource? i calls := by
  simp [lastSource?, Call.source?, h]

end Sources

end Calls

namespace Service

variable {m : Type → Type} {ι : Type} {α : ι → Type}

section Tables

variable [Monad m] [∀ i, Resource (α i)]

def step (s : Service m) : Call m α → Service m
  | .withSettings settings => s.withSettings settings
  | .register i source => s.register (α i) source

def build (calls : List (Call m α)) : Service m :=
  calls.foldl step {}

/-- The service has the last settings, and a registration for each type that has a source, with the
last one. -/
structure IsBuilt [DecidableEq ι] (calls : List (Call m α)) (s : Service m) : Prop where
  settings : s.settings = lastSettings calls
  nodup : (Assoc.keys s.registrations).Nodup
  mem : ∀ entry, entry ∈ s.registrations ↔ ∃ i source, lastSource? i calls = some source ∧
    entry = (Resource.singular (α i), Registration.of (α i) source)
  custom : s.custom = []

variable [DecidableEq ι] {calls : List (Call m α)} {s : Service m}

/-- One more call keeps a service what the calls build. -/
theorem isBuilt_step (hnames : Function.Injective fun i => Resource.singular (α i))
    (h : IsBuilt calls s) (call : Call m α) : IsBuilt (calls ++ [call]) (s.step call) := by
  cases call with
  | withSettings settings =>
      refine ⟨(lastSettings_withSettings calls settings).symm, h.nodup, ?_, h.custom⟩
      intro entry
      simp only [lastSource?_withSettings]
      exact h.mem entry
  | register j source =>
      refine ⟨?_, Assoc.nodup_keys_insert _ _ h.nodup, ?_, h.custom⟩
      · rw [lastSettings_register]
        exact h.settings
      · intro entry
        have hinsert : entry ∈ (s.step (.register j source)).registrations ↔ _ :=
          Assoc.mem_insert_iff h.nodup
        rw [hinsert, h.mem]
        constructor
        · rintro (rfl | ⟨⟨i, last, hlast, rfl⟩, hne⟩)
          · exact ⟨j, source, lastSource?_register_self calls source, rfl⟩
          · have hij : j ≠ i := by
              rintro rfl
              exact hne rfl
            exact ⟨i, last, (lastSource?_register_of_ne calls hij source).trans hlast, rfl⟩
        · rintro ⟨i, last, hlast, rfl⟩
          by_cases hij : j = i
          · subst hij
            rw [lastSource?_register_self] at hlast
            cases hlast
            exact .inl rfl
          · rw [lastSource?_register_of_ne calls hij] at hlast
            exact .inr ⟨⟨i, last, hlast, rfl⟩, fun heq => hij (hnames heq).symm⟩

theorem isBuilt_build (hnames : Function.Injective fun i => Resource.singular (α i))
    (calls : List (Call m α)) : IsBuilt calls (build calls) := by
  induction calls using List.reverseRecOn with
  | nil => exact ⟨rfl, List.nodup_nil, by simp [build, lastSource?], rfl⟩
  | append_singleton calls call ih =>
      have hstep : build (calls ++ [call]) = (build calls).step call := by
        rw [build, List.foldl_append]
        rfl
      rw [hstep]
      exact isBuilt_step hnames ih call

/-- With its registrations in another order a service is still what the calls build. -/
theorem IsBuilt.perm (h : IsBuilt calls s) {table : List (String × Registration m)}
    (hperm : table.Perm s.registrations) : IsBuilt calls { s with registrations := table } where
  settings := h.settings
  nodup := (hperm.map Prod.fst).nodup_iff.2 h.nodup
  mem entry := hperm.mem_iff.trans (h.mem entry)
  custom := h.custom

end Tables

/-! ## Listings -/

def listingPath (α : Type) [Resource α] : List Char :=
  '/' :: (Resource.plural α).toList

section Listings

variable [Monad m] {β : Type} [Resource β]

def listing (limits : PageLimits) (source : Listing.Source m β) (query : List Char) : m Response :=
  match readParams query with
  | .error e => pure (.ofError (.validation e))
  | .ok params =>
    (fun found => respondWith (found.map fun page => page.map Resource.encode)) <$>
      Listing.answer (Resource.descriptor β) source limits params

theorem get_listRoute [LawfulMonad m] (limits : PageLimits) (source : Listing.Source m β)
    (query : List Char) :
    (listRoute limits (Registration.of β source)).get query = listing limits source query := by
  simp only [listRoute, listing]
  cases readParams query with
  | error e => rfl
  | ok params =>
      simp only [Listing.answer, Registration.of]
      cases Listing.prepare (Resource.descriptor β) limits params with
      | error e => simp only [map_pure, Except.map]
      | ok prepared => exact (comp_map ..).symm

theorem toList_pattern_listRoute (limits : PageLimits) (source : Listing.Source m β) :
    (listRoute limits (Registration.of β source)).pattern.toList = listingPath β := by
  simp [listRoute, Registration.of, listingPath, String.toList_append]

end Listings

/-- The types have different names, and their plurals are single segments other than the two that
tell that the service is alive. -/
structure AreNamed (α : ι → Type) [∀ i, Resource (α i)] : Prop where
  singular : Function.Injective fun i => Resource.singular (α i)
  plural : Function.Injective fun i => Resource.plural (α i)
  plain : ∀ i, ∀ c ∈ (Resource.plural (α i)).toList, c ∉ ['/', '?', '#', '\x7b', '\x7d']
  free : ∀ i, Resource.plural (α i) ≠ "health" ∧ Resource.plural (α i) ≠ "healthz"

namespace AreNamed

variable [∀ i, Resource (α i)] {i j : ι}

theorem eq_of_listingPath (h : AreNamed α) (heq : listingPath (α i) = listingPath (α j)) :
    i = j :=
  h.plural (String.ext (List.tail_eq_of_cons_eq heq))

theorem listingPath_not_mem (h : AreNamed α) (i : ι) :
    listingPath (α i) ∉ ["/health".toList, "/healthz".toList] := by
  rw [List.mem_pair]
  rintro (hhealth | hhealthz)
  · exact (h.free i).1 (String.ext (List.tail_eq_of_cons_eq hhealth))
  · exact (h.free i).2 (String.ext (List.tail_eq_of_cons_eq hhealthz))

theorem plain_listingPath (h : AreNamed α) (i : ι) :
    ∀ c ∈ listingPath (α i), c ∉ ['?', '#', '\x7b', '\x7d'] := by
  refine List.forall_mem_cons.2 ⟨by decide, ?_⟩
  intro c hc hmem
  exact h.plain i c hc (List.mem_cons_of_mem '/' hmem)

theorem read_target (h : AreNamed α) (i : ι) :
    Target.read ("/" ++ Resource.plural (α i)).toList = ⟨listingPath (α i), []⟩ := by
  have hpath : ("/" ++ Resource.plural (α i)).toList = listingPath (α i) := by
    simp [listingPath, String.toList_append]
  have hslash : (listingPath (α i)).head? = some '/' := rfl
  have hplain {c : Char} (hc : c ∈ ['?', '#', '\x7b', '\x7d']) :
      ∀ d ∈ listingPath (α i), decide (d ≠ c) = true := by
    intro d hd
    exact decide_eq_true fun heq => h.plain_listingPath i d hd (heq ▸ hc)
  have hfragment := List.takeWhile_eq_self_iff.2 (hplain (by decide : '#' ∈ _))
  have hquery := List.takeWhile_eq_self_iff.2 (hplain (by decide : '?' ∈ _))
  have hnone := List.dropWhile_eq_nil_iff.2 (hplain (by decide : '?' ∈ _))
  rw [hpath, Target.read, if_pos hslash, Target.ofPath, hfragment, hquery, hnone]
  rfl

end AreNamed

/-! ## Answers -/

section Answers

variable [Monad m] [∀ i, Resource (α i)] [DecidableEq ι] {calls calls' : List (Call m α)}
variable {s s' : Service m} {route : Route m} {path : List Char} {i : ι}
variable {source : Listing.Source m (α i)}

/-- The routes of a service are those that tell that it is alive and those of the types that have a
source. -/
theorem IsBuilt.mem_routes (h : IsBuilt calls s) :
    route ∈ s.routes ↔ route = healthRoute "/health" ∨ route = healthRoute "/healthz" ∨
      ∃ i source, lastSource? i calls = some source ∧
        route = listRoute (lastSettings calls).limits (Registration.of (α i) source) := by
  simp only [routes, h.custom, h.settings, List.append_nil, List.mem_append, List.mem_map,
    List.mem_cons, List.not_mem_nil, or_false, or_assoc]
  refine or_congr_right (or_congr_right ⟨?_, ?_⟩)
  · rintro ⟨entry, hentry, rfl⟩
    obtain ⟨i, source, hlast, rfl⟩ := (h.mem entry).1 hentry
    exact ⟨i, source, hlast, rfl⟩
  · rintro ⟨i, source, hlast, rfl⟩
    exact ⟨_, (h.mem _).2 ⟨i, source, hlast, rfl⟩, rfl⟩

theorem IsBuilt.nodup_patterns (hnames : AreNamed α) (h : IsBuilt calls s) :
    (s.routes.map Route.pattern).Nodup := by
  have hslash {a b : String} (heq : "/" ++ a = "/" ++ b) : a = b := by
    simpa [String.ext_iff, String.toList_append] using heq
  have hfree {word : String} (hword : word = "health" ∨ word = "healthz") :
      "/" ++ word ∉ s.registrations.map fun entry => "/" ++ entry.2.plural := by
    intro hmem
    obtain ⟨entry, hentry, heq⟩ := List.mem_map.1 hmem
    obtain ⟨i, source, -, rfl⟩ := (h.mem entry).1 hentry
    have hplural : Resource.plural (α i) = word := hslash heq
    obtain rfl | rfl := hword
    · exact (hnames.free i).1 hplural
    · exact (hnames.free i).2 hplural
  have hplurals : (s.registrations.map fun entry => "/" ++ entry.2.plural).Nodup := by
    refine List.Nodup.map_on ?_ h.nodup.of_map
    intro entry hentry entry' hentry' heq
    obtain ⟨i, source, hlast, rfl⟩ := (h.mem entry).1 hentry
    obtain ⟨j, source', hlast', rfl⟩ := (h.mem entry').1 hentry'
    obtain rfl : i = j := hnames.plural (hslash heq)
    obtain rfl : source = source' := Option.some.inj (hlast.symm.trans hlast')
    rfl
  have hpatterns : s.routes.map Route.pattern =
      ("/" ++ "health") :: ("/" ++ "healthz") ::
        s.registrations.map fun entry => "/" ++ entry.2.plural := by
    simp [routes, h.custom, healthRoute, listRoute]
  rw [hpatterns, List.nodup_cons, List.nodup_cons, List.mem_cons, not_or]
  exact ⟨⟨by decide, hfree (.inl rfl)⟩, hfree (.inr rfl), hplurals⟩

/-- The patterns have no braces. -/
theorem IsBuilt.isLiteral (hnames : AreNamed α) (h : IsBuilt calls s) :
    ∀ route ∈ s.routes, IsLiteral route.pattern.toList := by
  intro route hroute
  obtain rfl | rfl | ⟨i, source, -, rfl⟩ := h.mem_routes.1 hroute
  · have hhealth : IsLiteral "/health".toList := by decide
    exact hhealth
  · have hhealthz : IsLiteral "/healthz".toList := by decide
    exact hhealthz
  · rw [toList_pattern_listRoute]
    intro c hc
    have hplain := hnames.plain_listingPath i c hc
    simp only [List.mem_cons, not_or] at hplain
    exact ⟨hplain.2.2.1, hplain.2.2.2.1⟩

theorem IsBuilt.routeOf?_eq_some_iff (hnames : AreNamed α) (h : IsBuilt calls s) :
    routeOf? path s.routes = some route ↔
      (route = healthRoute "/health" ∨ route = healthRoute "/healthz" ∨
        ∃ i source, lastSource? i calls = some source ∧
          route = listRoute (lastSettings calls).limits (Registration.of (α i) source)) ∧
        route.pattern.toList = path := by
  rw [Service.routeOf?_eq_some_iff (h.isLiteral hnames) (h.nodup_patterns hnames), h.mem_routes]

/-- A request to the path of a registered type is answered out of its last source. -/
theorem IsBuilt.respond_registered [LawfulMonad m] (hnames : AreNamed α) (h : IsBuilt calls s)
    (hlast : lastSource? i calls = some source) {target : String}
    (hpath : (Target.read target.toList).path = listingPath (α i)) :
    s.respond "GET" target =
      listing (lastSettings calls).limits source (Target.read target.toList).query := by
  have hroute : routeOf? (Target.read target.toList).path s.routes =
      some (listRoute (lastSettings calls).limits (Registration.of (α i) source)) := by
    rw [h.routeOf?_eq_some_iff hnames, toList_pattern_listRoute]
    exact ⟨.inr (.inr ⟨i, source, hlast, rfl⟩), hpath.symm⟩
  simp only [respond, hroute, get_listRoute]

/-- Nothing is found on a path that is neither that of a registered type nor one of the two that
tell that the service is alive. -/
theorem IsBuilt.respond_other (hnames : AreNamed α) (h : IsBuilt calls s) (method : String)
    {target : String}
    (hhealth : (Target.read target.toList).path ∉ ["/health".toList, "/healthz".toList])
    (hpaths : ∀ i, (Target.read target.toList).path = listingPath (α i) →
      lastSource? i calls = none) :
    s.respond method target = pure .notFound := by
  have hnone : routeOf? (Target.read target.toList).path s.routes = none := by
    rw [Option.eq_none_iff_forall_ne_some]
    intro route hroute
    obtain ⟨rfl | rfl | ⟨i, source, hlast, rfl⟩, hpath⟩ := (h.routeOf?_eq_some_iff hnames).1 hroute
    · exact hhealth (hpath ▸ List.mem_cons_self)
    · exact hhealth (hpath ▸ List.mem_cons_of_mem _ List.mem_cons_self)
    · rw [toList_pattern_listRoute] at hpath
      rw [hpaths i hpath.symm] at hlast
      cases hlast
  simp only [respond, hnone]

/-- Services with the same last limits and sources have the same answers. -/
theorem IsBuilt.respond_eq (hnames : AreNamed α) (h : IsBuilt calls s) (h' : IsBuilt calls' s')
    (hlimits : (lastSettings calls).limits = (lastSettings calls').limits)
    (hsources : ∀ i, lastSource? i calls = lastSource? i calls') (method target : String) :
    s.respond method target = s'.respond method target := by
  have hroutes : routeOf? (Target.read target.toList).path s.routes =
      routeOf? (Target.read target.toList).path s'.routes := by
    apply Option.ext
    intro route
    rw [h.routeOf?_eq_some_iff hnames, h'.routeOf?_eq_some_iff hnames, hlimits]
    simp only [hsources]
  simp only [respond, hroutes]

/-- A service that is built by any calls answers at the plurals of exactly the types that have been
registered, each out of its last source and under the limits of the last settings. In which order
it goes through its registrations is no matter, so calls with the same last settings and the same
last source of each type build services that give the same response to every request. -/
theorem answers_of_calls [LawfulMonad m] (hnames : AreNamed α) (calls : List (Call m α))
    {table : List (String × Registration m)} (htable : table.Perm (build calls).registrations) :
    let service : Service m := { build calls with registrations := table }
    (∀ i, Target.read ("/" ++ Resource.plural (α i)).toList = ⟨listingPath (α i), []⟩) ∧
    (∀ i target, (Target.read target.toList).path = listingPath (α i) →
      (∀ source, lastSource? i calls = some source → service.respond "GET" target =
        listing (lastSettings calls).limits source (Target.read target.toList).query) ∧
      (lastSource? i calls = none → service.respond "GET" target = pure .notFound)) ∧
    ∀ (calls' : List (Call m α)) (table' : List (String × Registration m)),
      table'.Perm (build calls').registrations →
      (lastSettings calls).limits = (lastSettings calls').limits →
      (∀ i, lastSource? i calls = lastSource? i calls') → ∀ method target,
        service.respond method target =
          { build calls' with registrations := table' }.respond method target := by
  intro service
  have hbuilt : IsBuilt calls service := (isBuilt_build hnames.singular calls).perm htable
  refine ⟨hnames.read_target, ?paths, ?calls⟩
  case paths =>
    intro i target hpath
    refine ⟨fun source hlast => hbuilt.respond_registered hnames hlast hpath, ?_⟩
    intro hnone
    apply hbuilt.respond_other hnames
    · exact hpath ▸ hnames.listingPath_not_mem i
    · intro j hpath'
      obtain rfl := hnames.eq_of_listingPath (hpath.symm.trans hpath')
      exact hnone
  case calls =>
    intro calls' table' htable' hlimits hsources method target
    have hbuilt' := (isBuilt_build hnames.singular calls').perm htable'
    exact hbuilt.respond_eq hnames hbuilt' hlimits hsources method target

abbrev DirectoryEntity (i : Fin Directory.schemas.length) : Type :=
  Entity (Directory.schemas.get i)

theorem directory_areNamed : AreNamed DirectoryEntity where
  singular i j := by
    revert i j
    decide
  plural i j := by
    revert i j
    decide
  plain i c hc := by
    have hplain : ∀ i, (Resource.plural (DirectoryEntity i)).toList.all
        (fun c => c ∉ ['/', '?', '#', '\x7b', '\x7d']) = true := by decide
    exact of_decide_eq_true (List.all_eq_true.1 (hplain i) c hc)
  free := by decide

/-- Of two sources of people the second one counts, and so do the limits that are given after
both. -/
theorem answers_of_calls_people :
    let people : Fin Directory.schemas.length := ⟨0, by decide⟩
    let lost : Listing.Source Id (DirectoryEntity people) := fun _ _ => .error (.internal "lost")
    let found : Listing.Source Id (DirectoryEntity people) := fun _ page =>
      .ok ⟨[], 0, page.index, page.size⟩
    let small : Settings := { limits := ⟨5, 5⟩ }
    let service : Service Id :=
      build [.register people lost, .register people found, .withSettings small]
    (service.respond "GET" "/people").status = 200 ∧
      (service.respond "GET" "/people?size=6").status = 400 ∧
      service.respond "GET" "/roles" = Response.notFound ∧
      ∀ method target, service.respond method target =
        (build [.withSettings small, .register people found]).respond method target := by
  intro people lost found small service
  let calls : List (Call Id DirectoryEntity) :=
    [.register people lost, .register people found, .withSettings small]
  obtain ⟨-, hpaths, hcalls⟩ := answers_of_calls directory_areNamed calls (.refl _)
  have hpeople (target : String)
      (hpath : (Target.read target.toList).path = listingPath (DirectoryEntity people)) :=
    (hpaths people target hpath).1 found rfl
  refine ⟨?_, ?_, ?_, ?_⟩
  · rw [hpeople "/people" (by decide)]
    decide +kernel
  · rw [hpeople "/people?size=6" (by decide)]
    decide +kernel
  · exact (hpaths ⟨1, by decide⟩ "/roles" (by decide)).2 rfl
  · let calls' : List (Call Id DirectoryEntity) := [.withSettings small, .register people found]
    have hsources (i : Fin Directory.schemas.length) :
        lastSource? i calls = lastSource? i calls' := by
      by_cases hi : people = i
      · subst hi
        rfl
      · simp [lastSource?, calls, calls', Call.source?, hi]
    exact hcalls calls' (build calls').registrations (.refl _) rfl hsources

end Answers

end Service

end EntityQuery.Http
