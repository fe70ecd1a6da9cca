/-
**Stepping through what a search finds.**

A location names a group and a script by their numbers, but the order of a search is that of places:
first of groups, then of scripts in a group, then of instructions (`Scene.Precedes`). If numbers are
different, each location has one place, and stepping from one match to the next visits all of them.

* `orderKey?_eq_some_iff`: a location is compared by the places at which it stands;
* `pairwise_instructions`, `pairwise_findAll`: instructions and matches are listed in that order;
* `findNext?_of_split`, `findPrevious?_of_split`: a step from a location goes to the nearest match
  on its other side;
* `stepping_enumerates`: steps forward visit all matches in order, and steps backward in reverse.
-/

import SceneScript.Proofs.Containers
import SceneScript.Search

namespace SceneScript

/-! ### Steps along a list -/

/-- Calling `next` again and again, each time with its last result, gives the listed results and
then nothing. -/
inductive Visits {α : Type} (next : Option α → Option α) : Option α → List α → Prop
  | stop {start : Option α} : next start = none → Visits next start []
  | step {start : Option α} {item : α} {rest : List α} : next start = some item →
      Visits next (some item) rest → Visits next start (item :: rest)

section Lists

variable {α : Type} {items : List α}

/-- A list is visited if each step leads to the item behind the last one. -/
theorem visits_of_steps {next : Option α → Option α} {start : Option α}
    (first : next start = items.head?)
    (each : ∀ (front : List α) (item : α) (back : List α), items = front ++ item :: back →
      next (some item) = back.head?) :
    Visits next start items := by
  induction items generalizing start with
  | nil => exact .stop first
  | cons item rest ih =>
    refine .step first (ih (each [] item rest rfl) fun front other back split => ?_)
    exact each (item :: front) other back (by rw [split, List.cons_append])

theorem find?_of_split {chosen : α → Bool} {front back : List α}
    (out : ∀ item ∈ front, ¬chosen item = true) (within : ∀ item ∈ back, chosen item = true) :
    (front ++ back).find? chosen = back.head? := by
  rw [List.find?_append, List.find?_eq_none.mpr out, Option.none_or]
  cases back with
  | nil => rfl
  | cons item rest => exact List.find?_cons_of_pos (within item List.mem_cons_self)

/-- If all that follows a chosen item is chosen, then the chosen items are the end of the list. -/
theorem exists_split {chosen : α → Prop}
    (upward : items.Pairwise fun first second => chosen first → chosen second) :
    ∃ front back, items = front ++ back ∧ (∀ item ∈ front, ¬chosen item) ∧
      ∀ item ∈ back, chosen item := by
  induction items with
  | nil => exact ⟨[], [], rfl, by simp, by simp⟩
  | cons item rest ih =>
    obtain ⟨own, others⟩ := List.pairwise_cons.mp upward
    by_cases here : chosen item
    · refine ⟨[], item :: rest, rfl, by simp, List.forall_mem_cons.mpr ⟨here, ?_⟩⟩
      exact fun other member => own other member here
    · obtain ⟨front, back, rfl, out, within⟩ := ih others
      exact ⟨item :: front, back, rfl, List.forall_mem_cons.mpr ⟨here, out⟩, within⟩

end Lists

namespace Scene

/-! ### The order of locations -/

/-- A location stands at given places: that of its group, that of its script, and its index. -/
def StandsAt (scene : Scene) (location : Location) (key : Nat × Nat × Nat) : Prop :=
  ∃ group entry, scene.groups[key.1]? = some group ∧ group.id = location.group ∧
    group.entries[key.2.1]? = some entry ∧ entry.script.id = location.script ∧
    key.2.2 = location.index

/-- The group and the script of a location exist; its index may be any number. -/
def Holds (scene : Scene) (location : Location) : Prop :=
  ∃ group ∈ scene.groups, group.id = location.group ∧ location.script ∈ group.numbers

/-- One location comes before another: by the places of their groups, then by those of their
scripts, then by their indices. -/
def Precedes (scene : Scene) (first second : Location) : Prop :=
  ∃ key key', scene.StandsAt first key ∧ scene.StandsAt second key' ∧
    Prod.Lex (· < ·) (Prod.Lex (· < ·) (· < ·)) key key'

variable {scene : Scene} {location first second third : Location} {key key' : Nat × Nat × Nat}

theorem keyLess_iff :
    keyLess key key' = true ↔ Prod.Lex (· < ·) (Prod.Lex (· < ·) (· < ·)) key key' := by
  simp [keyLess, Prod.lex_def]

/-- **A location is compared by the places at which it stands.** -/
theorem orderKey?_eq_some_iff (distinct : scene.Distinct) :
    scene.orderKey? location = some key ↔ scene.StandsAt location key := by
  have groups (place : Nat) : scene.place? location.group = some place ↔
      ∃ group, scene.groups[place]? = some group ∧ group.id = location.group :=
    findIdx?_iff_listed Group.id distinct.groups
  have scripts {group : Group} (member : group ∈ scene.groups) (place : Nat) :
      group.place? location.script = some place ↔
        ∃ entry, group.entries[place]? = some entry ∧ entry.script.id = location.script :=
    findIdx?_iff_listed (fun entry : ScriptEntry => entry.script.id)
      (distinct.scripts group member)
  unfold orderKey?
  constructor
  · intro found
    obtain ⟨groupPlace, here, found⟩ := Option.bind_eq_some_iff.mp found
    obtain ⟨group, listed, found⟩ := Option.bind_eq_some_iff.mp found
    obtain ⟨scriptPlace, inside, same⟩ := Option.bind_eq_some_iff.mp found
    cases same
    obtain ⟨own, listed', named⟩ := (groups groupPlace).mp here
    rw [listed] at listed'
    cases listed'
    obtain ⟨entry, entered, called⟩ :=
      (scripts (List.mem_of_getElem? listed) scriptPlace).mp inside
    exact ⟨group, entry, listed, named, entered, called, rfl⟩
  · obtain ⟨groupPlace, scriptPlace, index⟩ := key
    rintro ⟨group, entry, listed, named, entered, called, indexed⟩
    have here := (groups groupPlace).mpr ⟨group, listed, named⟩
    have inside := (scripts (List.mem_of_getElem? listed) scriptPlace).mpr ⟨entry, entered, called⟩
    refine Option.bind_eq_some_iff.mpr ⟨groupPlace, here, ?_⟩
    refine Option.bind_eq_some_iff.mpr ⟨group, listed, ?_⟩
    refine Option.bind_eq_some_iff.mpr ⟨scriptPlace, inside, ?_⟩
    rw [← indexed]
    rfl

theorem standsAt_of_listed {group : Group} {entry : ScriptEntry} {groupPlace scriptPlace : Nat}
    (listed : scene.groups[groupPlace]? = some group)
    (entered : group.entries[scriptPlace]? = some entry) (index : Nat) :
    scene.StandsAt { group := group.id, script := entry.script.id, index }
      (groupPlace, scriptPlace, index) :=
  ⟨group, entry, listed, rfl, entered, rfl, rfl⟩

theorem StandsAt.unique (distinct : scene.Distinct) (stands : scene.StandsAt location key)
    (stands' : scene.StandsAt location key') : key = key' := by
  rw [← orderKey?_eq_some_iff distinct] at stands stands'
  exact Option.some.inj (stands.symm.trans stands')

theorem Holds.exists_standsAt (holds : scene.Holds location) :
    ∃ key, scene.StandsAt location key := by
  obtain ⟨group, member, named, numbered⟩ := holds
  obtain ⟨groupPlace, listed⟩ := List.mem_iff_getElem?.mp member
  obtain ⟨entry, among, called⟩ := List.mem_map.mp numbered
  obtain ⟨scriptPlace, entered⟩ := List.mem_iff_getElem?.mp among
  exact ⟨(groupPlace, scriptPlace, location.index), group, entry, listed, named, entered, called,
    rfl⟩

theorem Precedes.trans (distinct : scene.Distinct) (before : scene.Precedes first second)
    (after : scene.Precedes second third) : scene.Precedes first third := by
  obtain ⟨key, middle, stands, stands', less⟩ := before
  obtain ⟨middle', key', again, stands'', less'⟩ := after
  obtain rfl := stands'.unique distinct again
  refine ⟨key, key', stands, stands'', ?_⟩
  simp only [Prod.lex_def] at less less' ⊢
  omega

theorem Precedes.irrefl (distinct : scene.Distinct) : ¬scene.Precedes location location := by
  rintro ⟨key, key', stands, stands', less⟩
  obtain rfl := stands.unique distinct stands'
  simp only [Prod.lex_def] at less
  omega

theorem Precedes.asymm (distinct : scene.Distinct) (before : scene.Precedes first second) :
    ¬scene.Precedes second first :=
  fun after => Precedes.irrefl distinct (before.trans distinct after)

/-- Locations are compared as the search compares them. -/
theorem precedes_iff (distinct : scene.Distinct) :
    scene.Precedes first second ↔ ∃ key key', scene.orderKey? first = some key ∧
      scene.orderKey? second = some key' ∧ keyLess key key' = true := by
  simp only [Precedes, orderKey?_eq_some_iff distinct, keyLess_iff]

/-! ### The instructions in order -/

/-- **The instructions of a scene are listed in the order of their places.** -/
theorem pairwise_instructions (scene : Scene) :
    scene.instructions.Pairwise fun first second => scene.Precedes first.1 second.1 := by
  rw [instructions, List.pairwise_flatMap]
  constructor
  · intro group member
    obtain ⟨groupPlace, listed⟩ := List.mem_iff_getElem?.mp member
    rw [List.pairwise_flatMap]
    constructor
    · intro entry among
      obtain ⟨scriptPlace, entered⟩ := List.mem_iff_getElem?.mp among
      rw [List.pairwise_map, List.pairwise_iff_getElem]
      intro index index' inside inside' less
      simp only [List.getElem_zipIdx, Nat.zero_add]
      exact ⟨_, _, standsAt_of_listed listed entered index,
        standsAt_of_listed listed entered index', .right _ (.right _ less)⟩
    · rw [List.pairwise_iff_getElem]
      intro scriptPlace scriptPlace' inside inside' less item member item' member'
      obtain ⟨⟨instruction, index⟩, _, rfl⟩ := List.mem_map.mp member
      obtain ⟨⟨instruction', index'⟩, _, rfl⟩ := List.mem_map.mp member'
      exact ⟨_, _, standsAt_of_listed listed (List.getElem?_eq_getElem inside) index,
        standsAt_of_listed listed (List.getElem?_eq_getElem inside') index',
        .right _ (.left _ _ less)⟩
  · rw [List.pairwise_iff_getElem]
    intro groupPlace groupPlace' inside inside' less item member item' member'
    obtain ⟨entry, among, member⟩ := List.mem_flatMap.mp member
    obtain ⟨entry', among', member'⟩ := List.mem_flatMap.mp member'
    obtain ⟨scriptPlace, entered⟩ := List.mem_iff_getElem?.mp among
    obtain ⟨scriptPlace', entered'⟩ := List.mem_iff_getElem?.mp among'
    obtain ⟨⟨instruction, index⟩, _, rfl⟩ := List.mem_map.mp member
    obtain ⟨⟨instruction', index'⟩, _, rfl⟩ := List.mem_map.mp member'
    exact ⟨_, _, standsAt_of_listed (List.getElem?_eq_getElem inside) entered index,
      standsAt_of_listed (List.getElem?_eq_getElem inside') entered' index', .left _ _ less⟩

theorem nodup_locations (distinct : scene.Distinct) : (scene.instructions.map Prod.fst).Nodup := by
  rw [List.Nodup, List.pairwise_map]
  refine scene.pairwise_instructions.imp fun before same => ?_
  rw [same] at before
  exact Precedes.irrefl distinct before

/-- **Matches are listed in the order of their places.** -/
theorem pairwise_findAll (scene : Scene) (query : Query) :
    (scene.findAll query).Pairwise scene.Precedes := by
  rw [findAll, List.pairwise_map]
  exact scene.pairwise_instructions.filter _

/-- A match is in a script of the scene. -/
theorem holds_of_mem_findAll {query : Query} (member : location ∈ scene.findAll query) :
    scene.Holds location := by
  obtain ⟨item, kept, rfl⟩ := List.mem_map.mp member
  obtain ⟨group, listed, inside⟩ := List.mem_flatMap.mp (List.mem_filter.mp kept).1
  obtain ⟨entry, entered, inside⟩ := List.mem_flatMap.mp inside
  obtain ⟨⟨instruction, index⟩, _, rfl⟩ := List.mem_map.mp inside
  exact ⟨group, listed, rfl, List.mem_map_of_mem entered⟩

/-! ### Steps -/

section Steps

variable {query : Query} {front back : List Location}

/-- **A step forward leads to the first match behind a location.** -/
theorem findNext?_of_split (distinct : scene.Distinct) (holds : scene.Holds location)
    (split : scene.findAll query = front ++ back)
    (out : ∀ hit ∈ front, ¬scene.Precedes location hit)
    (behind : ∀ hit ∈ back, scene.Precedes location hit) :
    scene.findNext? query (some location) = back.head? := by
  obtain ⟨key, stands⟩ := holds.exists_standsAt
  have own := (orderKey?_eq_some_iff distinct).mpr stands
  have compares : ∀ hit : Location,
      (scene.orderKey? hit).any (keyLess key) = true ↔ scene.Precedes location hit := by
    intro hit
    simp [precedes_iff distinct, own, Option.any_eq_true]
  have step : scene.findNext? query (some location) =
      (scene.findAll query).find? fun hit => (scene.orderKey? hit).any (keyLess key) := by
    simp only [findNext?, own, Option.bind_eq_bind, Option.bind_some]
  rw [step, split]
  exact find?_of_split (fun hit member => (compares hit).not.mpr (out hit member))
    fun hit member => (compares hit).mpr (behind hit member)

/-- **A step backward leads to the last match before a location.** -/
theorem findPrevious?_of_split (distinct : scene.Distinct) (holds : scene.Holds location)
    (split : scene.findAll query = front ++ back)
    (before : ∀ hit ∈ front, scene.Precedes hit location)
    (out : ∀ hit ∈ back, ¬scene.Precedes hit location) :
    scene.findPrevious? query (some location) = front.getLast? := by
  obtain ⟨key, stands⟩ := holds.exists_standsAt
  have own := (orderKey?_eq_some_iff distinct).mpr stands
  have compares : ∀ hit : Location,
      ((scene.orderKey? hit).any fun other => keyLess other key) = true ↔
        scene.Precedes hit location := by
    intro hit
    simp [precedes_iff distinct, own, Option.any_eq_true]
  have step : scene.findPrevious? query (some location) =
      (scene.findAll query).reverse.find? fun hit =>
        (scene.orderKey? hit).any fun other => keyLess other key := by
    simp only [findPrevious?, own, Option.bind_eq_bind, Option.bind_some]
  rw [step, split, List.reverse_append, ← List.head?_reverse]
  refine find?_of_split (fun hit member => ?_) fun hit member => ?_
  · exact (compares hit).not.mpr (out hit (List.mem_reverse.mp member))
  · exact (compares hit).mpr (before hit (List.mem_reverse.mp member))

/-- What stands on both sides of a match. -/
theorem sides_of_findAll (split : scene.findAll query = front ++ location :: back) :
    (∀ hit ∈ front, scene.Precedes hit location) ∧ ∀ hit ∈ back, scene.Precedes location hit := by
  have sorted := scene.pairwise_findAll query
  rw [split] at sorted
  obtain ⟨_, rest, across⟩ := List.pairwise_append.mp sorted
  exact ⟨fun hit member => across hit member location List.mem_cons_self,
    (List.pairwise_cons.mp rest).1⟩

theorem findNext?_of_match (distinct : scene.Distinct)
    (split : scene.findAll query = front ++ location :: back) :
    scene.findNext? query (some location) = back.head? := by
  obtain ⟨before, behind⟩ := sides_of_findAll split
  have holds : scene.Holds location := holds_of_mem_findAll (by rw [split]; simp)
  have widened : scene.findAll query = (front ++ [location]) ++ back := by simp [split]
  refine findNext?_of_split distinct holds widened (fun hit member => ?_) behind
  rcases List.mem_append.mp member with earlier | own
  · exact (before hit earlier).asymm distinct
  · rw [List.mem_singleton.mp own]
    exact Precedes.irrefl distinct

theorem findPrevious?_of_match (distinct : scene.Distinct)
    (split : scene.findAll query = front ++ location :: back) :
    scene.findPrevious? query (some location) = front.getLast? := by
  obtain ⟨before, behind⟩ := sides_of_findAll split
  have holds : scene.Holds location := holds_of_mem_findAll (by rw [split]; simp)
  refine findPrevious?_of_split distinct holds split before (List.forall_mem_cons.mpr ⟨?_, ?_⟩)
  · exact Precedes.irrefl distinct
  · exact fun hit later => (behind hit later).asymm distinct

theorem visits_findNext? (distinct : scene.Distinct) (query : Query) :
    Visits (scene.findNext? query) none (scene.findAll query) :=
  visits_of_steps rfl fun _ _ _ split => findNext?_of_match distinct split

theorem visits_findPrevious? (distinct : scene.Distinct) (query : Query) :
    Visits (scene.findPrevious? query) none (scene.findAll query).reverse := by
  refine visits_of_steps List.head?_reverse.symm fun front hit back split => ?_
  have unreversed : scene.findAll query = back.reverse ++ hit :: front.reverse := by
    rw [← List.reverse_reverse (scene.findAll query), split]
    simp
  rw [findPrevious?_of_match distinct unreversed, List.getLast?_reverse]

end Steps

/-- **Stepping visits all that a search finds.** From the start, steps forward visit the matches in
order, each once, and then end; steps backward do so in reverse. From any location of a script of
the scene, a step forward leads to the first match strictly behind it, and a step backward to the
last one strictly before it. -/
theorem stepping_enumerates (distinct : scene.Distinct) (query : Query) :
    (scene.findAll query).Nodup ∧
    Visits (scene.findNext? query) none (scene.findAll query) ∧
    Visits (scene.findPrevious? query) none (scene.findAll query).reverse ∧
    ∀ location : Location, scene.Holds location →
      (∃ front back, scene.findAll query = front ++ back ∧
        (∀ hit ∈ front, ¬scene.Precedes location hit) ∧
        (∀ hit ∈ back, scene.Precedes location hit) ∧
        scene.findNext? query (some location) = back.head?) ∧
      ∃ front back, scene.findAll query = front ++ back ∧
        (∀ hit ∈ front, scene.Precedes hit location) ∧
        (∀ hit ∈ back, ¬scene.Precedes hit location) ∧
        scene.findPrevious? query (some location) = front.getLast? := by
  have sorted := scene.pairwise_findAll query
  refine ⟨?_, visits_findNext? distinct query, visits_findPrevious? distinct query,
    fun location holds => ⟨?_, ?_⟩⟩
  · exact (nodup_locations distinct).sublist (List.filter_sublist.map Prod.fst)
  · obtain ⟨front, back, split, out, behind⟩ :=
      exists_split (sorted.imp fun {first second} before behind =>
        (behind : scene.Precedes location first).trans distinct before)
    exact ⟨front, back, split, out, behind, findNext?_of_split distinct holds split out behind⟩
  · obtain ⟨front, back, split, out, rest⟩ :=
      exists_split (sorted.imp fun {first second} before (behind : ¬scene.Precedes first location)
        later => behind (before.trans distinct later))
    have before : ∀ hit ∈ front, scene.Precedes hit location :=
      fun hit member => not_not.mp (out hit member)
    exact ⟨front, back, split, before, rest,
      findPrevious?_of_split distinct holds split before rest⟩

/-- A scene whose groups and scripts do not stand in the order of their numbers. -/
def corridor : Scene where
  info := { id := 1, name := "corridor" }
  groups := [
    { id := 5, name := "lamp"
      entries := [
        { script := { id := 9, instructions := [.nop, .ret, .nop] }
          priority := .highest
          invocation := .asyncWait },
        { script := { id := 2, instructions := [.ret] }
          priority := .highest
          invocation := .asyncWait }] },
    { id := 3, name := "door"
      entries := [
        { script := { id := 4, instructions := [.nop] }
          priority := .highest
          invocation := .syncWait }] }]

/-- All places of the instruction that does nothing, and the step from a place that is not one. -/
theorem stepping_enumerates_corridor :
    corridor.Distinct ∧
      Visits (corridor.findNext? (.opcode 0x5F)) none [⟨5, 9, 0⟩, ⟨5, 9, 2⟩, ⟨3, 4, 0⟩] ∧
      Visits (corridor.findPrevious? (.opcode 0x5F)) none [⟨3, 4, 0⟩, ⟨5, 9, 2⟩, ⟨5, 9, 0⟩] ∧
      corridor.Holds ⟨5, 2, 70⟩ ∧
      ∃ front back, corridor.findAll (.opcode 0x5F) = front ++ back ∧
        (∀ hit ∈ front, ¬corridor.Precedes ⟨5, 2, 70⟩ hit) ∧
        (∀ hit ∈ back, corridor.Precedes ⟨5, 2, 70⟩ hit) ∧
        back.head? = some ⟨3, 4, 0⟩ := by
  have distinct : corridor.Distinct := ⟨by decide, by decide⟩
  have found : corridor.findAll (.opcode 0x5F) = [⟨5, 9, 0⟩, ⟨5, 9, 2⟩, ⟨3, 4, 0⟩] := by
    decide +kernel
  have stepped : corridor.findNext? (.opcode 0x5F) (some ⟨5, 2, 70⟩) = some ⟨3, 4, 0⟩ := by
    decide +kernel
  have holds : corridor.Holds ⟨5, 2, 70⟩ := ⟨_, List.mem_cons_self, rfl, by decide⟩
  obtain ⟨_, forward, backward, around⟩ := stepping_enumerates distinct (.opcode 0x5F)
  obtain ⟨⟨front, back, split, out, behind, next⟩, _⟩ := around ⟨5, 2, 70⟩ holds
  rw [found] at forward backward
  exact ⟨distinct, forward, backward, holds, front, back, split, out, behind, next ▸ stepped⟩

end Scene

end SceneScript
