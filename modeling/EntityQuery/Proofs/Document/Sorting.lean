import EntityQuery.Proofs.Document.Comparing
import EntityQuery.Proofs.Memory.Order
/-!
# In which order stages put documents

How a document store reads the stages that order documents. Members are added by
expressions over the document as it was before the stage. Documents are then compared by the
keys of the sort, the first key first: a missing member counts as null, null comes before
every other value, values of one family have their order, and -1 turns the order of a key
around. What follows the sort does not change the order.

An expression names a member by a dollar sign in front of its name, which has no dots in it.
Expressions, values and stages of other kinds have no meaning here.
-/

namespace EntityQuery.DocumentStore

/-! ## Expressions -/

def isNullOrMissing : Option Bson → Bool
  | none | some .null => true
  | _ => false

/-- The result of an operator. Results can be missing. -/
def result? : String → List (Option Bson) → Option (Option Bson)
  | "$ifNull", [value, default] => some (if isNullOrMissing value then default else value)
  | "$eq", [some a, some b] => some (some (.boolean (equals (some a) b)))
  | "$cond", [some (.boolean condition), yes, no] => some (if condition then yes else no)
  | _, _ => none

mutual

def evaluate? (doc : Document) : Bson → Option (Option Bson)
  | .string text =>
    match text.toList with
    | '$' :: name => some (Assoc.lookup (String.ofList name) doc)
    | _ => some (some (.string text))
  | .document [(operator, .array arguments)] =>
    (evaluateAll? doc arguments).bind (result? operator)
  | .null => some (some .null)
  | .int32 n => some (some (.int32 n))
  | _ => none

def evaluateAll? (doc : Document) : List Bson → Option (List (Option Bson))
  | [] => some []
  | e :: rest =>
    (evaluate? doc e).bind fun value => (evaluateAll? doc rest).map fun values => value :: values

end

/-- Adds the results of expressions in the original document, none of which may be missing. -/
def addFields? (original : Document) : Document → Document → Option Document
  | [], doc => some doc
  | (name, e) :: rest, doc =>
    match evaluate? original e with
    | some (some value) => addFields? original rest (Assoc.insert name value doc)
    | _ => none

/-! ## Comparing -/

def memberOrder? (a b : Option Bson) : Option Ordering :=
  match isNullOrMissing a, isNullOrMissing b with
  | true, true => some .eq
  | true, false => some .lt
  | false, true => some .gt
  | false, false => a.bind fun x => b.bind fun y => x.order? y

/-- The order of two documents by keys. A key counts where all keys before it are equal. -/
def compareBy? : List (String × Direction) → Document → Document → Option Ordering
  | [], _, _ => some .eq
  | (name, direction) :: rest, a, b =>
    match memberOrder? (Assoc.lookup name a) (Assoc.lookup name b) with
    | some .eq => compareBy? rest a b
    | order => order.map direction.apply

/-- The direction that a number stands for. -/
def direction? : Bson → Option Direction
  | .int32 n => if n = 1 then some .ascending else if n = -1 then some .descending else none
  | _ => none

def readKeys? : Document → Option (List (String × Direction))
  | [] => some []
  | (name, sign) :: rest =>
    (direction? sign).bind fun direction => (readKeys? rest).map fun keys =>
      (name, direction) :: keys

/-- The order in which stages put two documents. -/
def compareThrough? : List Document → Document → Document → Option Ordering
  | [("$addFields", .document fields)] :: rest, a, b =>
    (addFields? a fields a).bind fun a' => (addFields? b fields b).bind fun b' =>
      compareThrough? rest a' b'
  | [("$sort", .document signs)] :: _, a, b =>
    (readKeys? signs).bind fun keys => compareBy? keys a b
  | _, _, _ => none

/-- The order in which the listing of a page puts two documents. -/
def pageOrder? (page : PageSpec) (a b : Document) : Option Ordering :=
  compareThrough? ((pageStages page).map Stage.toDocument) a b

/-! ## Flags -/

theorem evaluate?_operator (doc : Document) (operator : String) (arguments : List Bson) :
    evaluate? doc (.document [(operator, .array arguments)]) =
      (evaluateAll? doc arguments).bind (result? operator) := by
  rw [evaluate?]

theorem evaluate?_member (doc : Document) (name : String) :
    evaluate? doc (.string ("$" ++ name)) = some (Assoc.lookup name doc) := by
  have htext : ("$" ++ name).toList = '$' :: name.toList := by simp [String.toList_append]
  rw [evaluate?, htext]
  simp

def flagOf (member : Option Bson) : Bson :=
  .int32 (if isNullOrMissing member then 1 else 0)

theorem evaluate?_nullFlag (doc : Document) (name : String) :
    evaluate? doc (nullFlag name) = some (some (flagOf (Assoc.lookup name doc))) := by
  have hnull : evaluate? doc .null = some (some .null) := by rw [evaluate?]
  have hint32 (n : Int32) : evaluate? doc (.int32 n) = some (some (.int32 n)) := by rw [evaluate?]
  have hmember := evaluate?_member doc name
  generalize Assoc.lookup name doc = member at hmember ⊢
  have horNull : evaluate? doc (.document [("$ifNull", .array [.string ("$" ++ name), .null])]) =
      some (some (if isNullOrMissing member then .null else member.getD .null)) := by
    rw [evaluate?_operator, evaluateAll?, hmember, evaluateAll?, hnull, evaluateAll?]
    cases member with
    | none => rfl
    | some value => cases value <;> rfl
  rw [nullFlag, evaluate?_operator, evaluateAll?, evaluate?_operator, evaluateAll?, horNull,
    evaluateAll?, hnull, evaluateAll?, evaluateAll?, hint32, evaluateAll?, hint32, evaluateAll?]
  cases member with
  | none => rfl
  | some value => cases value <;> rfl

/-- The order of two flags: what is null or missing comes last. -/
theorem memberOrder?_flagOf (a b : Option Bson) :
    memberOrder? (some (flagOf a)) (some (flagOf b)) =
      some (cmp (isNullOrMissing a) (isNullOrMissing b)) := by
  have horder (m n : Int32) :
      memberOrder? (some (.int32 m)) (some (.int32 n)) = some (cmp m.toInt n.toInt) :=
    congrArg some (Binary64.cmp_number m.toInt n.toInt)
  rw [flagOf, flagOf, horder]
  cases isNullOrMissing a <;> cases isNullOrMissing b <;> rfl

theorem addFields?_cons (original : Document) (flag name : String) (rest doc : Document) :
    addFields? original ((flag, nullFlag name) :: rest) doc =
      addFields? original rest (Assoc.insert flag (flagOf (Assoc.lookup name original)) doc) := by
  rw [addFields?, evaluate?_nullFlag]

/-- Adding flags of different names puts each of them under its name and leaves the other
members alone. Flags are about the members from before. -/
theorem exists_addFields? (original : Document) {flags : List (String × String)} (doc : Document)
    (hnodup : (Assoc.keys flags).Nodup) :
    ∃ doc', addFields? original (flags.map fun (flag, name) => (flag, nullFlag name)) doc =
        some doc' ∧
      (∀ flag name, (flag, name) ∈ flags →
        Assoc.lookup flag doc' = some (flagOf (Assoc.lookup name original))) ∧
      ∀ name, name ∉ Assoc.keys flags → Assoc.lookup name doc' = Assoc.lookup name doc := by
  induction flags generalizing doc with
  | nil => exact ⟨doc, rfl, nofun, fun _ _ => rfl⟩
  | cons first rest ih =>
      obtain ⟨flag, name⟩ := first
      obtain ⟨hnew, hrest⟩ := List.nodup_cons.1 hnodup
      obtain ⟨doc', hadd, hflags, hframe⟩ :=
        ih (Assoc.insert flag (flagOf (Assoc.lookup name original)) doc) hrest
      refine ⟨doc', ?_, ?_, ?_⟩
      · rw [List.map_cons, addFields?_cons, hadd]
      · intro flag' name' hmem
        obtain heq | hmem := List.mem_cons.1 hmem
        · cases heq
          rw [hframe flag hnew, Assoc.lookup_insert, if_pos rfl]
        · exact hflags flag' name' hmem
      · intro other hother
        obtain ⟨hne, hother⟩ := not_or.1 (List.mem_cons.not.1 hother)
        rw [hframe other hother, Assoc.lookup_insert, if_neg (Ne.symm hne)]

theorem flagName_injective : Function.Injective flagName := by
  intro i j h
  have hdigits : Text.natDigits i = Text.natDigits j := by
    simpa [flagName, String.ext_iff] using h
  rw [← Text.natOfDigits_natDigits i, hdigits, Text.natOfDigits_natDigits]

theorem identifier_ne_flagName (i : Nat) : "_id" ≠ flagName i := by
  intro h
  simpa [flagName] using congrArg String.toList h

/-- The document has the flags of the keys, and the members of the other document beside them. -/
structure IsFlagged (keys : List SortKey) (doc flagged : Document) : Prop where
  flag : ∀ i key, (i, key) ∈ numbered keys →
    Assoc.lookup (flagName i) flagged = some (flagOf (Assoc.lookup (memberName key.field) doc))
  member : ∀ name, (∀ i < keys.length, name ≠ flagName i) →
    Assoc.lookup name flagged = Assoc.lookup name doc

theorem map_fst_numbered (keys : List SortKey) :
    (numbered keys).map Prod.fst = List.range keys.length := by
  simp [numbered, List.map_fst_zip]

theorem map_snd_numbered (keys : List SortKey) : (numbered keys).map Prod.snd = keys := by
  simp [numbered, List.map_snd_zip]

theorem keys_nullFlags (keys : List SortKey) :
    Assoc.keys (nullFlags keys) = (List.range keys.length).map flagName := by
  rw [← map_fst_numbered, Assoc.keys, nullFlags, List.map_map, List.map_map]
  rfl

theorem exists_isFlagged (keys : List SortKey) (doc : Document) :
    ∃ flagged, addFields? doc ((nullFlags keys).map fun (flag, name) => (flag, nullFlag name)) doc =
        some flagged ∧ IsFlagged keys doc flagged := by
  have hnodup : (Assoc.keys (nullFlags keys)).Nodup := by
    rw [keys_nullFlags]
    exact List.nodup_range.map flagName_injective
  obtain ⟨flagged, hadd, hflags, hframe⟩ := exists_addFields? doc doc hnodup
  refine ⟨flagged, hadd, ?_, ?_⟩
  · intro i key hkey
    have hmem : (flagName i, memberName key.field) ∈ nullFlags keys :=
      List.mem_map.2 ⟨(i, key), hkey, rfl⟩
    exact hflags (flagName i) (memberName key.field) hmem
  · intro name hname
    apply hframe
    rw [keys_nullFlags]
    rintro hmem
    obtain ⟨i, hi, rfl⟩ := List.mem_map.1 hmem
    exact hname i (List.mem_range.1 hi) rfl

/-! ## One order after the other -/

section Keys

variable {order : String → Ordering}

/-- The order of a key, from the orders of all members. -/
def keyOrder (order : String → Ordering) (key : String × Direction) : Ordering :=
  key.2.apply (order key.1)

theorem apply_eq_eq {direction : Direction} {order : Ordering} :
    direction.apply order = .eq ↔ order = .eq := by
  cases direction <;> cases order <;> decide

theorem apply_then (direction : Direction) (first second : Ordering) :
    direction.apply (first.then second) =
      (direction.apply first).then (direction.apply second) := by
  cases direction <;> cases first <;> rfl

theorem compareBy?_eq {keys : List (String × Direction)} {a b : Document}
    (h : ∀ key ∈ keys, memberOrder? (Assoc.lookup key.1 a) (Assoc.lookup key.1 b) =
      some (order key.1)) :
    compareBy? keys a b = some (firstDifference (keys.map (keyOrder order))) := by
  induction keys with
  | nil => rfl
  | cons key rest ih =>
      obtain ⟨name, direction⟩ := key
      have hrest := ih fun key hkey => h key (List.mem_cons_of_mem _ hkey)
      rw [compareBy?, h (name, direction) List.mem_cons_self, hrest, List.map_cons,
        firstDifference_cons, keyOrder]
      cases order name <;> cases direction <;> rfl

theorem firstDifference_ofList {keys : List (String × Direction)} {direction : Direction}
    (h : ∀ key ∈ keys, key.2 = direction) :
    firstDifference ((Assoc.ofList keys).map (keyOrder order)) =
      firstDifference (keys.map (keyOrder order)) := by
  induction keys using List.reverseRecOn with
  | nil => rfl
  | append_singleton keys key ih =>
      have hkeys := ih fun other hother => h other (List.mem_append_left [key] hother)
      have hsame : ∀ other ∈ keys, other.1 = key.1 → other = key := by
        intro other hother hname
        refine Prod.ext hname ?_
        rw [h other (List.mem_append_left [key] hother), h key (by simp)]
      obtain ⟨hmem, hlist⟩ | hlist := Assoc.ofList_concat_cases hsame
      · have hskip := firstDifference_skip [] fun hequal =>
          firstDifference_eq_eq.1 hequal _ (List.mem_map_of_mem (f := keyOrder order) hmem)
        rw [hlist, hkeys, List.map_append, List.map_singleton, hskip, List.append_nil]
      · rw [hlist, List.map_append, List.map_append, firstDifference_append,
          firstDifference_append, hkeys]

end Keys

/-! ## The sort of a listing -/

def flaggedKey (key : Nat × SortKey) : List (String × Direction) :=
  [(flagName key.1, key.2.direction), (memberName key.2.field, key.2.direction)]

/-- The keys of an order, each behind its flag. -/
def directedKeys (keys : List SortKey) : List (String × Direction) :=
  (numbered keys).flatMap flaggedKey

theorem exists_numbered_of_mem {keys : List SortKey} {entry : String × Direction}
    (h : entry ∈ directedKeys keys) :
    ∃ i key, (i, key) ∈ numbered keys ∧ (entry = (flagName i, key.direction) ∨
      entry = (memberName key.field, key.direction)) := by
  obtain ⟨⟨i, key⟩, hkey, hentry⟩ := List.mem_flatMap.1 h
  refine ⟨i, key, hkey, ?_⟩
  simpa [flaggedKey] using hentry

theorem direction_of_mem_directedKeys {keys : List SortKey} {direction : Direction}
    (h : ∀ key ∈ keys, key.direction = direction) :
    ∀ entry ∈ directedKeys keys, entry.2 = direction := by
  intro entry hentry
  obtain ⟨i, key, hkey, hcase⟩ := exists_numbered_of_mem hentry
  have heq := h key (List.of_mem_zip hkey).2
  obtain rfl | rfl := hcase <;> exact heq

/-- The keys with the identifier last, unless it is one of them. -/
def withIdentifier (keys : List (String × Direction)) : List (String × Direction) :=
  if Assoc.contains "_id" keys then keys else keys ++ [("_id", .ascending)]

theorem flaggedKeys_eq (keys : List SortKey) :
    flaggedKeys keys =
      (Assoc.ofList (directedKeys keys)).map fun key => (key.1, directionSign key.2) := by
  rw [flaggedKeys, ← Assoc.ofList_map, directedKeys, List.map_flatMap]
  rfl

theorem sortKeys_eq (keys : List SortKey) :
    sortKeys keys = (withIdentifier (Assoc.ofList (directedKeys keys))).map
      fun key => (key.1, directionSign key.2) := by
  have hcontains : Assoc.contains "_id" (flaggedKeys keys) =
      Assoc.contains "_id" (Assoc.ofList (directedKeys keys)) := by
    rw [flaggedKeys_eq, Assoc.contains, Assoc.lookup_map, Option.isSome_map, Assoc.contains]
  simp only [sortKeys, hcontains, withIdentifier]
  split
  · exact flaggedKeys_eq keys
  · rw [flaggedKeys_eq, List.map_append]
    rfl

theorem readKeys?_map (keys : List (String × Direction)) :
    readKeys? (keys.map fun key => (key.1, .int32 (directionSign key.2))) = some keys := by
  induction keys with
  | nil => rfl
  | cons key rest ih =>
      have hsign : direction? (.int32 (directionSign key.2)) = some key.2 := by
        cases key.2 <;> rfl
      rw [List.map_cons, readKeys?, hsign, ih]
      rfl

theorem pageOrder?_eq (page : PageSpec) (a b : Document) :
    ∃ a' b', IsFlagged page.keys a a' ∧ IsFlagged page.keys b b' ∧ pageOrder? page a b =
      compareBy? (withIdentifier (Assoc.ofList (directedKeys page.keys))) a' b' := by
  obtain ⟨a', ha, hflagged⟩ := exists_isFlagged page.keys a
  obtain ⟨b', hb, hflagged'⟩ := exists_isFlagged page.keys b
  refine ⟨a', b', hflagged, hflagged', ?_⟩
  have hsort := readKeys?_map (withIdentifier (Assoc.ofList (directedKeys page.keys)))
  simp only [pageOrder?, pageStages, List.map_cons, Stage.toDocument, compareThrough?, ha, hb,
    Option.bind_some, sortKeys_eq, List.map_map]
  exact congrArg (Option.bind · _) hsort

/-- By keys of one direction, documents are compared as if no key was left out and the
identifier was always the last one. -/
theorem compareBy?_withIdentifier {keys : List (String × Direction)} {direction : Direction}
    {a b : Document} {order : String → Ordering} (hdirection : ∀ key ∈ keys, key.2 = direction)
    (h : ∀ name, name ∈ Assoc.keys keys ∨ name = "_id" →
      memberOrder? (Assoc.lookup name a) (Assoc.lookup name b) = some (order name)) :
    compareBy? (withIdentifier (Assoc.ofList keys)) a b =
      some ((firstDifference (keys.map (keyOrder order))).then (order "_id")) := by
  have hmem : ∀ key ∈ Assoc.ofList keys, memberOrder? (Assoc.lookup key.1 a)
      (Assoc.lookup key.1 b) = some (order key.1) := by
    intro key hkey
    exact h key.1 (.inl (List.mem_map_of_mem (Assoc.mem_of_mem_ofList hkey)))
  have hthen : (firstDifference (keys.map (keyOrder order))).then (order "_id") =
      firstDifference ((Assoc.ofList keys).map (keyOrder order) ++ [order "_id"]) := by
    rw [firstDifference_append, firstDifference_ofList hdirection]
    exact congrArg _ Ordering.then_eq.symm
  rw [hthen, withIdentifier]
  split
  · next hcontains =>
      obtain ⟨d, hd⟩ := Option.isSome_iff_exists.1 hcontains
      have hkey := List.mem_map_of_mem (f := keyOrder order) (Assoc.mem_of_lookup hd)
      -- Whatever its direction, the key is equal on both sides exactly if the identifier is.
      have hskip := firstDifference_skip [] fun hequal =>
        apply_eq_eq.1 (firstDifference_eq_eq.1 hequal _ hkey)
      rw [compareBy?_eq hmem, hskip, List.append_nil]
  · rw [compareBy?_eq, List.map_append]
    · rfl
    · intro key hkey
      obtain hkey | hkey := List.mem_append.1 hkey
      · exact hmem key hkey
      · exact h key.1 (.inr (by rw [List.mem_singleton.1 hkey]))

end EntityQuery.DocumentStore
