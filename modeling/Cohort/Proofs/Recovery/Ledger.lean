import Mathlib
import Cohort.Recovery

/-!
What recovery does to its ledger. `Gives action post` says that the action drops nothing and that
its result meets `post`. `Keeps action post` says it only of a run in which nothing is dropped;
in every run, what was dropped before stays. `Makes action post` says it of every run, whatever is
dropped.
-/

namespace Cohort

variable {α β : Type}

def Gives (action : Recovery α) (post : α → Prop) : Prop :=
  ∀ ledger : Ledger, (action ledger).2.dropped = ledger.dropped ∧ post (action ledger).1

def Keeps (action : Recovery α) (post : α → Prop) : Prop :=
  ∀ ledger : Ledger, ∃ lost, (action ledger).2.dropped = ledger.dropped ++ lost ∧
    (lost = [] → post (action ledger).1)

def Makes (action : Recovery α) (post : α → Prop) : Prop :=
  ∀ ledger : Ledger, post (action ledger).1

theorem gives_pure {post : α → Prop} {value : α} (holds : post value) :
    Gives (pure value) post :=
  fun _ => ⟨rfl, holds⟩

theorem gives_fresh : Gives freshId fun _ => True :=
  fun _ => ⟨rfl, trivial⟩

theorem Gives.bind {first : Recovery α} {second : α → Recovery β} {middle : α → Prop}
    {post : β → Prop} (head : Gives first middle)
    (tail : ∀ value, middle value → Gives (second value) post) : Gives (first >>= second) post := by
  intro ledger
  obtain ⟨kept, holds⟩ := head ledger
  obtain ⟨kept', holds'⟩ := tail _ holds (first ledger).2
  exact ⟨kept'.trans kept, holds'⟩

theorem Gives.weaken {action : Recovery α} {post post' : α → Prop} (gives : Gives action post)
    (less : ∀ value, post value → post' value) : Gives action post' :=
  fun ledger => ⟨(gives ledger).1, less _ (gives ledger).2⟩

theorem Gives.keeps {action : Recovery α} {post : α → Prop} (gives : Gives action post) :
    Keeps action post :=
  fun ledger => ⟨[], by simpa using (gives ledger).1, fun _ => (gives ledger).2⟩

theorem keeps_pure {post : α → Prop} {value : α} (holds : post value) :
    Keeps (pure value) post :=
  (gives_pure holds).keeps

theorem keeps_fresh : Keeps freshId fun _ => True :=
  gives_fresh.keeps

/-- Once something is dropped, nothing has to hold any more. -/
theorem keeps_drop (text : String) (reason : DropReason) (value : α) {post : α → Prop} :
    Keeps (do drop text reason; pure value) post :=
  fun _ => ⟨[⟨text, reason⟩], rfl, by simp⟩

theorem Keeps.weaken {action : Recovery α} {post post' : α → Prop} (keeps : Keeps action post)
    (less : ∀ value, post value → post' value) : Keeps action post' := by
  intro ledger
  obtain ⟨lost, kept, holds⟩ := keeps ledger
  exact ⟨lost, kept, fun none_ => less _ (holds none_)⟩

theorem Keeps.bind {first : Recovery α} {second : α → Recovery β} {middle : α → Prop}
    {post : β → Prop} (head : Keeps first middle)
    (tail : ∀ value, Keeps (second value) fun result => middle value → post result) :
    Keeps (first >>= second) post := by
  intro ledger
  obtain ⟨lost, kept, holds⟩ := head ledger
  obtain ⟨lost', kept', holds'⟩ := tail (first ledger).1 (first ledger).2
  refine ⟨lost ++ lost', ?_, fun empty => ?_⟩
  · rw [← List.append_assoc, ← kept]
    exact kept'
  · obtain ⟨none_, none'⟩ := List.append_eq_nil_iff.mp empty
    exact holds' none' (holds none_)

theorem makes_pure {post : α → Prop} {value : α} (holds : post value) : Makes (pure value) post :=
  fun _ => holds

theorem makes_drop (text : String) (reason : DropReason) {value : α} {post : α → Prop}
    (holds : post value) : Makes (do drop text reason; pure value) post :=
  fun _ => holds

theorem Makes.bind {first : Recovery α} {second : α → Recovery β} {middle : α → Prop}
    {post : β → Prop} (head : Makes first middle)
    (tail : ∀ value, middle value → Makes (second value) post) : Makes (first >>= second) post :=
  fun ledger => tail _ (head ledger) (first ledger).2

/-- An action whose result matters only as what goes on with it. -/
theorem Makes.behind {first : Recovery α} {second : α → Recovery β} {post : β → Prop}
    (tail : ∀ value, Makes (second value) post) : Makes (first >>= second) post :=
  fun ledger => tail _ (first ledger).2

def recoverEach (recover : α → Recovery (Option β)) : List α → Recovery (List β)
  | [] => pure []
  | item :: rest => do
      let first ← recover item
      let others ← recoverEach recover rest
      pure (first.toList ++ others)

theorem recover_filters_each (members : List Sql.Expr) :
    recoverFilters members = recoverEach recoverNested members := by
  induction members with
  | nil => rfl
  | cons member rest ih => rw [recoverFilters, ih, recoverEach]

theorem recover_members_each (items : List Sql.Expr) :
    recoverMembers items = recoverEach recoverMember items := by
  induction items with
  | nil => rw [recoverMembers, recoverEach]
  | cons item rest ih => rw [recoverMembers, ih, recoverEach]

theorem recover_groups_each (fragments : List Sql.Expr) :
    recoverGroups fragments = recoverEach recoverGroup fragments := by
  induction fragments with
  | nil => rfl
  | cons fragment rest ih => rw [recoverGroups, ih, recoverEach]

theorem each_concat (recover : α → Recovery (Option β)) (items : List α) (item : α)
    (ledger : Ledger) :
    recoverEach recover (items ++ [item]) ledger =
      ((recoverEach recover items ledger).1 ++
        (recover item (recoverEach recover items ledger).2).1.toList,
        (recover item (recoverEach recover items ledger).2).2) := by
  have step (first : α) (rest : List α) (ledger : Ledger) :
      recoverEach recover (first :: rest) ledger =
        ((recover first ledger).1.toList ++ (recoverEach recover rest (recover first ledger).2).1,
          (recoverEach recover rest (recover first ledger).2).2) := rfl
  have none_ (ledger : Ledger) : recoverEach recover [] ledger = ([], ledger) := rfl
  induction items generalizing ledger with
  | nil => simp [step, none_]
  | cons first rest ih => simp [step, ih]

/-- What comes back of the items one by one comes back of the list. -/
theorem each_keeps {recover : α → Recovery (Option β)} {holds : α → Option β → Prop}
    {items : List α} (step : ∀ item ∈ items, Keeps (recover item) (holds item)) :
    Keeps (recoverEach recover items) fun found =>
      ∃ backs, List.Forall₂ holds items backs ∧ found = backs.reduceOption := by
  induction items with
  | nil => exact keeps_pure ⟨[], .nil, rfl⟩
  | cons item rest ih =>
      refine (step item List.mem_cons_self).bind fun back => ?_
      refine (ih fun other found => step other (List.mem_cons_of_mem item found)).bind
        fun others => keeps_pure ?_
      rintro ⟨backs, each, rfl⟩ first
      refine ⟨back :: backs, .cons first each, ?_⟩
      cases back <;> rfl

/-- A list of which every item comes back comes back as a list of that length. -/
theorem each_comes_back {recover : α → Recovery (Option β)} {good : β → Prop} {items : List α}
    (step : ∀ item ∈ items,
      Keeps (recover item) fun back => ∃ value, back = some value ∧ good value) :
    Keeps (recoverEach recover items) fun found =>
      found.length = items.length ∧ ∀ value ∈ found, good value := by
  refine (each_keeps step).weaken ?_
  rintro found ⟨backs, each, rfl⟩
  induction each with
  | nil => exact ⟨rfl, by simp⟩
  | cons first others ih =>
      obtain ⟨value, rfl, holds⟩ := first
      obtain ⟨length, all⟩ := ih fun item found => step item (List.mem_cons_of_mem _ found)
      refine ⟨?_, ?_⟩
      · simp [List.reduceOption_cons_of_some, length]
      · simpa [List.reduceOption_cons_of_some] using ⟨holds, all⟩

theorem each_makes {recover : α → Recovery (Option β)} {good : β → Prop} {items : List α}
    (step : ∀ item ∈ items, Makes (recover item) fun back => ∀ value ∈ back, good value) :
    Makes (recoverEach recover items) fun found => ∀ value ∈ found, good value := by
  induction items with
  | nil => exact makes_pure (by simp)
  | cons item rest ih =>
      refine (step item List.mem_cons_self).bind fun back first => ?_
      refine (ih fun other found => step other (List.mem_cons_of_mem item found)).bind
        fun others behind => makes_pure ?_
      exact List.forall_mem_append.mpr ⟨by simpa using first, behind⟩

end Cohort
