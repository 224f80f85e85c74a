import Workflow.Store.Selection
import Mathlib.Data.Nat.Init
import Mathlib.Order.Nat

/-!
# The repository at hand

A process asks for repositories one after the other, and its environment changes in between. It
keeps only the repository of the last answer. So all answers in memory are one repository as long as
no database is chosen between them, and a database makes way for a new memory; who asks for nothing
in particular is given the latest answer again, and a request that is refused leaves no trace.
-/

namespace Workflow

namespace Selection

/-- A request for a repository, and what is found around the process at that time. -/
structure Request where
  host : Host := {}
  url : Option String := none
  settings : Option Settings := none

namespace Request

/-- The database that a request comes to by itself, if any source names one. -/
def url? (request : Request) : Except Failure (Option String) := do
  let settings ← match request.settings with
    | some settings => pure settings
    | none => Settings.load request.host
  return urlFor request.host request.url settings

/-- The request is for no repository in particular. -/
def IsPlain (request : Request) : Prop := request.url = none ∧ request.settings = none

end Request

/-- The answer to a request, and what is at hand then. -/
def serve (s : Selection) (request : Request) : Except Failure StorageHandle × Selection :=
  match s.choose request.host request.url request.settings with
  | .ok (handle, s') => (.ok handle, s')
  | .error failure => (.error failure, s)

/-- What is at hand when some requests have been answered. -/
def after (s : Selection) : List Request → Selection
  | [] => s
  | request :: requests => (s.serve request).2.after requests

def answers (s : Selection) : List Request → List (Except Failure StorageHandle)
  | [] => []
  | request :: requests => (s.serve request).1 :: (s.serve request).2.answers requests

/-! ### One request -/

/-- What an answer can be: a refusal, the repository at hand, or a new one. A memory is new only if
there is none at hand. -/
inductive Answers (s : Selection) : Except Failure StorageHandle → Selection → Prop
  | refused (failure : Failure) : Answers s (.error failure) s
  | kept (handle : StorageHandle) (hcurrent : s.current = some handle) : Answers s (.ok handle) s
  | opened (place : StoragePlace)
    (hnew : place = .memory → ∀ handle, s.current = some handle → handle.place ≠ .memory) :
    Answers s (.ok ⟨s.opened, place⟩) ⟨some ⟨s.opened, place⟩, s.opened + 1⟩

variable {s s' : Selection} {request : Request} {answer : Except Failure StorageHandle}
  {handle handle' : StorageHandle} {requests : List Request}

theorem openMemory_place (s : Selection) : s.openMemory.1.place = .memory := by
  unfold openMemory
  split
  · split
    · assumption
    · rfl
  · rfl

theorem answers_openMemory (s : Selection) : s.Answers (.ok s.openMemory.1) s.openMemory.2 := by
  unfold openMemory
  split
  · rename_i handle hcurrent
    split
    · exact .kept handle hcurrent
    · rename_i hplace
      refine .opened .memory fun _ other hother => ?_
      obtain rfl := Option.some.inj (hcurrent.symm.trans hother)
      exact hplace
  · rename_i hnone
    refine .opened .memory fun _ other hother => ?_
    cases hnone.symm.trans hother

theorem place_of_placeOf {host : Host} {url : String} {place : StoragePlace}
    (h : placeOf host url = .ok place) : place ≠ .memory := by
  unfold placeOf at h
  split at h
  · dsimp only at h
    split at h
    · cases h
    · split at h <;> cases h
      exact nofun
  · cases h

theorem answers_chooseFor (s : Selection) (host : Host) (url : Option String)
    (settings : Settings) :
    (∃ failure, s.chooseFor host url settings = .error failure) ∨
      ∃ handle s', s.chooseFor host url settings = .ok (handle, s') ∧
        s.Answers (.ok handle) s' := by
  unfold chooseFor
  split
  · exact .inr ⟨_, _, rfl, s.answers_openMemory⟩
  · rename_i url _
    cases hplace : placeOf host url with
    | error failure => exact .inl ⟨failure, rfl⟩
    | ok place =>
        have hplace := place_of_placeOf hplace
        exact .inr ⟨_, _, rfl, .opened place fun hmemory => absurd hmemory hplace⟩

theorem answers_serve (s : Selection) (request : Request) :
    s.Answers (s.serve request).1 (s.serve request).2 := by
  have hchoose : (∃ failure, s.choose request.host request.url request.settings = .error failure) ∨
      ∃ handle s', s.choose request.host request.url request.settings = .ok (handle, s') ∧
        s.Answers (.ok handle) s' := by
    unfold choose
    split
    · exact .inr ⟨_, _, rfl, .kept _ ‹_›⟩
    · exact s.answers_chooseFor request.host _ _
    · cases Settings.load request.host with
      | error failure => exact .inl ⟨failure, rfl⟩
      | ok settings => exact s.answers_chooseFor request.host _ settings
  unfold serve
  rcases hchoose with ⟨failure, h⟩ | ⟨handle, s', h, hanswers⟩
  · rw [h]
    exact .refused failure
  · rw [h]
    exact hanswers

/-- Who asks for nothing in particular is given what is at hand. -/
theorem serve_of_isPlain (hplain : request.IsPlain) (hcurrent : s.current = some handle) :
    s.serve request = (.ok handle, s) := by
  have hchoose : s.choose request.host request.url request.settings = .ok (handle, s) := by
    rw [hplain.1, hplain.2]
    unfold choose
    rw [hcurrent]
  rw [serve, hchoose]

/-- A request that comes to no database is answered in memory, unless it is plain and something is
at hand already. -/
theorem exists_serve_of_memory (hurl : request.url? = .ok none)
    (hplain : request.IsPlain → s.current = none) :
    ∃ handle, (s.serve request).1 = .ok handle ∧ handle.place = .memory := by
  have hchoose : s.choose request.host request.url request.settings = .ok s.openMemory := by
    have hfor {settings : Settings} (hnone : urlFor request.host request.url settings = none) :
        s.chooseFor request.host request.url settings = .ok s.openMemory := by
      rw [chooseFor, hnone]
    unfold Request.url? at hurl
    unfold choose
    split
    · rename_i handle hcurrent hnoUrl hnoSettings
      cases (hplain ⟨hnoUrl, hnoSettings⟩).symm.trans hcurrent
    · rename_i settings hsettings
      rw [hsettings] at hurl
      exact hfor (Except.ok.inj hurl)
    · rename_i hsettings _
      rw [hsettings] at hurl
      cases hload : Settings.load request.host with
      | error failure =>
          rw [hload] at hurl
          cases hurl
      | ok settings =>
          rw [hload] at hurl
          exact hfor (Except.ok.inj hurl)
  refine ⟨s.openMemory.1, ?_, s.openMemory_place⟩
  rw [serve, hchoose]

/-! ### One answer after the other -/

theorem after_append (s : Selection) (requests more : List Request) :
    s.after (requests ++ more) = (s.after requests).after more := by
  induction requests generalizing s with
  | nil => rfl
  | cons request requests ih => exact ih _

theorem getElem?_answers (s : Selection) (requests : List Request) (i : Nat) :
    (s.answers requests)[i]? =
      requests[i]?.map fun request => ((s.after (requests.take i)).serve request).1 := by
  induction requests generalizing s i with
  | nil => rfl
  | cons request requests ih =>
      cases i with
      | zero => rfl
      | succ i => exact ih _ i

theorem after_take_succ (s : Selection) {i : Nat} (hrequest : requests[i]? = some request) :
    s.after (requests.take (i + 1)) = ((s.after (requests.take i)).serve request).2 := by
  rw [List.take_add_one, hrequest, after_append]
  rfl

/-- What becomes of the repository at hand by the answer to a request. -/
theorem answers_at {i : Nat} (hanswer : (s.answers requests)[i]? = some answer) :
    (s.after (requests.take i)).Answers answer (s.after (requests.take (i + 1))) := by
  rw [getElem?_answers] at hanswer
  obtain ⟨request, hrequest, rfl⟩ := Option.map_eq_some_iff.mp hanswer
  rw [after_take_succ s hrequest]
  exact answers_serve _ request

/-- What holds at one time and is kept by each answer up to another, holds there. -/
theorem keeps_until (P : Selection → Prop) {i j : Nat} (hij : i ≤ j)
    (hlength : j ≤ requests.length) (hstart : P (s.after (requests.take i)))
    (hstep : ∀ k answer t t', i ≤ k → k < j → (s.answers requests)[k]? = some answer →
      Answers t answer t' → P t → P t') :
    P (s.after (requests.take j)) := by
  induction j, hij using Nat.le_induction with
  | base => exact hstart
  | succ j hij ih =>
      have hrequest : requests[j]? = some requests[j] := List.getElem?_eq_getElem (by omega)
      have hanswer := getElem?_answers s requests j
      rw [hrequest, Option.map_some] at hanswer
      refine hstep j _ _ _ hij (Nat.lt_succ_self j) hanswer (answers_at hanswer) (ih (by omega) ?_)
      exact fun k answer t t' hik hkj => hstep k answer t t' hik (by omega)

theorem Answers.eq_of_error {failure : Failure} (h : s.Answers (.error failure) s') : s' = s := by
  cases h
  rfl

theorem Answers.current (h : s.Answers (.ok handle) s') : s'.current = some handle := by
  cases h with
  | kept _ hcurrent => exact hcurrent
  | opened => rfl

/-- A memory stays at hand as long as every answer is in memory, and then it is the answer. -/
theorem Answers.stays (h : s.Answers answer s') (hcurrent : s.current = some handle)
    (hmemory : handle.place = .memory)
    (hanswer : ∀ handle', answer = .ok handle' → handle'.place = .memory) :
    s'.current = some handle ∧ ∀ handle', answer = .ok handle' → handle' = handle := by
  cases h with
  | refused failure => exact ⟨hcurrent, nofun⟩
  | kept other hother =>
      refine ⟨hcurrent, fun handle' heq => ?_⟩
      obtain rfl := Except.ok.inj heq
      exact Option.some.inj (hother.symm.trans hcurrent)
  | opened place hnew => exact absurd hmemory (hnew (hanswer _ rfl) handle hcurrent)

/-- The repository was opened before, and something else is at hand. -/
structure HasDropped (s : Selection) (handle : StorageHandle) : Prop where
  number : handle.number < s.opened
  current : s.current ≠ some handle

/-- What is at hand has been opened. -/
def IsNumbered (s : Selection) : Prop :=
  ∀ handle, s.current = some handle → handle.number < s.opened

theorem Answers.isNumbered (h : s.Answers answer s') (hnumbered : s.IsNumbered) :
    s'.IsNumbered := by
  cases h with
  | refused => exact hnumbered
  | kept => exact hnumbered
  | opened place =>
      intro handle hcurrent
      obtain rfl := Option.some.inj hcurrent
      exact Nat.lt_succ_self _

theorem Answers.opened_le (h : s.Answers answer s') : s.opened ≤ s'.opened := by
  cases h with
  | refused => exact Nat.le_refl _
  | kept => exact Nat.le_refl _
  | opened => exact Nat.le_succ _

/-- What has been dropped is no answer any more. -/
theorem Answers.hasDropped (h : s.Answers answer s') (hdropped : s.HasDropped handle) :
    answer ≠ .ok handle ∧ s'.HasDropped handle := by
  cases h with
  | refused => exact ⟨nofun, hdropped⟩
  | kept other hother =>
      refine ⟨fun heq => ?_, hdropped⟩
      obtain rfl := Except.ok.inj heq
      exact hdropped.current hother
  | opened place =>
      have hne : (⟨s.opened, place⟩ : StorageHandle) ≠ handle := by
        rintro rfl
        exact Nat.lt_irrefl _ hdropped.number
      refine ⟨fun heq => hne (Except.ok.inj heq), Nat.lt_succ_of_lt hdropped.number, fun heq => ?_⟩
      exact hne (Option.some.inj heq)

theorem isNumbered_after (requests : List Request) (i : Nat) (hi : i ≤ requests.length) :
    (({} : Selection).after (requests.take i)).IsNumbered :=
  keeps_until IsNumbered (Nat.zero_le i) hi nofun fun _ _ _ _ _ _ _ hanswers =>
    hanswers.isNumbered

/-! ### The life of a process -/

/-- How a process that makes some requests is answered. -/
structure SharesMemory (requests : List Request) : Prop where
  /-- What comes to no database is answered in memory; a plain request comes to nothing by itself
  once there is an answer. -/
  memory : ∀ (i : Nat) (request : Request), requests[i]? = some request →
    request.url? = .ok none →
      (request.IsPlain → ∀ k < i, ∀ handle, (answers {} requests)[k]? ≠ some (.ok handle)) →
        ∃ handle, (answers {} requests)[i]? = some (.ok handle) ∧ handle.place = .memory
  /-- Two answers in memory are one repository just if no database is chosen between them. -/
  shared : ∀ (i j : Nat) (handle handle' : StorageHandle), i < j →
    (answers {} requests)[i]? = some (.ok handle) → (answers {} requests)[j]? = some (.ok handle') →
      handle.place = .memory → handle'.place = .memory →
        (handle' = handle ↔ ∀ (k : Nat) (other : StorageHandle), i < k → k < j →
          (answers {} requests)[k]? = some (.ok other) → other.place = .memory)
  latest : ∀ (i j : Nat) (request : Request) (handle : StorageHandle), i < j →
    requests[j]? = some request → request.IsPlain →
      (answers {} requests)[i]? = some (.ok handle) →
        (∀ (k : Nat) (other : StorageHandle), i < k → k < j →
          (answers {} requests)[k]? ≠ some (.ok other)) →
            (answers {} requests)[j]? = some (.ok handle)
  /-- A request that is refused leaves what is at hand, and all other answers are as though it had
  not been made. -/
  refused : ∀ (i : Nat) (failure : Failure), (answers {} requests)[i]? = some (.error failure) →
    after {} (requests.take (i + 1)) = after {} (requests.take i) ∧
      answers {} (requests.eraseIdx i) = (answers {} requests).eraseIdx i

variable {i j : Nat} {failure : Failure}

theorem length_answers (s : Selection) (requests : List Request) :
    (s.answers requests).length = requests.length := by
  induction requests generalizing s with
  | nil => rfl
  | cons request requests ih => exact congrArg (· + 1) (ih _)

theorem le_length_of_answer (hanswer : (s.answers requests)[i]? = some answer) :
    i + 1 ≤ requests.length := by
  rw [← s.length_answers requests]
  exact List.getElem?_eq_some_iff.mp hanswer |>.1

/-- As long as nothing has been answered, nothing is at hand. -/
theorem current_eq_none (hi : i ≤ requests.length)
    (hnone : ∀ k < i, ∀ handle, (answers {} requests)[k]? ≠ some (.ok handle)) :
    (after {} (requests.take i)).current = none := by
  refine keeps_until (·.current = none) (Nat.zero_le i) hi rfl ?_
  intro k answer t t' _ hk hanswer hanswers hcurrent
  cases hanswers with
  | refused => exact hcurrent
  | kept handle hother => cases hcurrent.symm.trans hother
  | opened => exact absurd hanswer (hnone k hk _)

/-- What was answered is at hand until there is another answer. -/
theorem current_of_latest (hij : i < j) (hj : j ≤ requests.length)
    (hanswer : (s.answers requests)[i]? = some (.ok handle))
    (hnone : ∀ k other, i < k → k < j → (s.answers requests)[k]? ≠ some (.ok other)) :
    (s.after (requests.take j)).current = some handle := by
  refine keeps_until (·.current = some handle) hij hj (answers_at hanswer).current ?_
  intro k answer t t' hik hkj hnext hanswers hcurrent
  cases hanswers with
  | refused => exact hcurrent
  | kept => exact hcurrent
  | opened => exact absurd hnext (hnone k _ hik hkj)

/-- A memory that was answered is at hand as long as all answers are in memory. -/
theorem current_of_memory (hij : i < j) (hj : j ≤ requests.length)
    (hanswer : (s.answers requests)[i]? = some (.ok handle)) (hmemory : handle.place = .memory)
    (hall : ∀ k other, i < k → k < j → (s.answers requests)[k]? = some (.ok other) →
      other.place = .memory) :
    (s.after (requests.take j)).current = some handle := by
  refine keeps_until (·.current = some handle) hij hj (answers_at hanswer).current ?_
  intro k answer t t' hik hkj hnext hanswers hcurrent
  refine (hanswers.stays hcurrent hmemory fun handle' heq => ?_).1
  exact hall k handle' hik hkj (heq ▸ hnext)

/-- Once something else has been answered, what was answered before is no answer any more. -/
theorem ne_of_dropped {k : Nat} {other : StorageHandle} (hik : i < k) (hkj : k < j)
    (hanswer : (answers {} requests)[i]? = some (.ok handle))
    (hother : (answers {} requests)[k]? = some (.ok other)) (hne : other ≠ handle)
    (hlast : (answers {} requests)[j]? = some (.ok handle')) : handle' ≠ handle := by
  have hk := le_length_of_answer hother
  have hj := le_length_of_answer hlast
  have hopened : handle.number < (after {} (requests.take (k + 1))).opened := by
    have hnumber := isNumbered_after requests (i + 1) (by omega) handle (answers_at hanswer).current
    exact keeps_until (handle.number < ·.opened) (Nat.succ_lt_succ hik).le hk hnumber
      fun _ _ _ _ _ _ _ hanswers hbefore => Nat.lt_of_lt_of_le hbefore hanswers.opened_le
  -- Handles are numbered as they are opened, so none that has been dropped is ever opened again.
  have hdropped : HasDropped (after {} (requests.take (k + 1))) handle := by
    refine ⟨hopened, fun hcurrent => hne ?_⟩
    exact Option.some.inj ((answers_at hother).current.symm.trans hcurrent)
  have hstill : HasDropped (after {} (requests.take j)) handle :=
    keeps_until (·.HasDropped handle) hkj (by omega) hdropped
      fun _ _ _ _ _ _ _ hanswers hbefore => (hanswers.hasDropped hbefore).2
  exact fun heq => ((answers_at hlast).hasDropped hstill).1 (congrArg _ heq)

theorem answers_eraseIdx (hanswer : (s.answers requests)[i]? = some (.error failure)) :
    s.answers (requests.eraseIdx i) = (s.answers requests).eraseIdx i := by
  induction requests generalizing s i with
  | nil => cases hanswer
  | cons request requests ih =>
      cases i with
      | zero =>
          have hfirst : (s.serve request).1 = .error failure := Option.some.inj hanswer
          have hserved := s.answers_serve request
          rw [hfirst] at hserved
          exact congrArg (answers · requests) hserved.eq_of_error.symm
      | succ i => exact congrArg (_ :: ·) (ih hanswer)

/-- **Memory is shared until a database is chosen.** Whatever a process asks for, and however its
environment changes in between. -/
theorem memory_is_shared_until_database (requests : List Request) : SharesMemory requests where
  memory i request hrequest hurl hplain := by
    have hi : i < requests.length := (List.getElem?_eq_some_iff.mp hrequest).1
    obtain ⟨handle, hserve, hmemory⟩ := exists_serve_of_memory
      (s := after {} (requests.take i)) hurl fun h => current_eq_none hi.le (hplain h)
    refine ⟨handle, ?_, hmemory⟩
    rw [getElem?_answers, hrequest, Option.map_some, hserve]
  shared i j handle handle' hij hanswer hlast hmemory hmemory' := by
    have hj := le_length_of_answer hlast
    constructor
    · rintro rfl k other hik hkj hother
      by_contra hplace
      refine ne_of_dropped hik hkj hanswer hother ?_ hlast rfl
      rintro rfl
      exact hplace hmemory
    · intro hall
      have hcurrent := current_of_memory hij (by omega) hanswer hmemory hall
      refine ((answers_at hlast).stays hcurrent hmemory fun other heq => ?_).2 handle' rfl
      exact Except.ok.inj heq ▸ hmemory'
  latest i j request handle hij hrequest hplain hanswer hnone := by
    have hj : j < requests.length := (List.getElem?_eq_some_iff.mp hrequest).1
    have hcurrent := current_of_latest hij hj.le hanswer hnone
    rw [getElem?_answers, hrequest, Option.map_some, serve_of_isPlain hplain hcurrent]
  refused i failure hanswer :=
    ⟨(answers_at hanswer).eq_of_error, answers_eraseIdx hanswer⟩

/-- A memory, a database, and settings without a database. -/
def alternating : List Request :=
  [{ settings := some {} }, { url := some "sqlite://" }, { settings := some {} }]

/-- The memory after a database is not the one before it. -/
theorem memory_is_lost_to_database :
    alternating.map (·.url?) = [.ok none, .ok (some "sqlite://"), .ok none] ∧
      answers {} alternating =
        [.ok ⟨0, .memory⟩, .ok ⟨1, .database ""⟩, .ok ⟨2, .memory⟩] := ⟨rfl, rfl⟩

end Selection

end Workflow
