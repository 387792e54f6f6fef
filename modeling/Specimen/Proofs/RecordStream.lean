import Specimen.Proofs.Drawing

/-!
# One stream of records

The records that repeated calls of `fetch` give from a generator are its stream. Every call takes a
block off the front of what is left of the stream: one record or a batch, or nothing if a setter is
missing, where it returns the generator it was given (`perform_of_fails`). The answers of a sequence
of calls are therefore those on consecutive blocks of the stream, in the order of the calls
(`run_eq_blocks`).
-/

namespace Specimen

namespace Generator

variable {σ : Type} [RandomSource σ]

/-! ## The stream -/

/-- The generator after `n` calls of `fetch`; one that cannot draw stays as it is. -/
def after (g : Generator σ) : Nat → Generator σ
  | 0 => g
  | n + 1 =>
    match (g.after n).fetch with
    | .ok (_, g') => g'
    | .error _ => g.after n

/-- The record that the call of `fetch` after `n` others gives. -/
def recordAt (g : Generator σ) (n : Nat) : Record :=
  match (g.after n).fetch with
  | .ok (r, _) => r
  | .error _ => .empty

/-- The next `n` records of the stream after the first `start`. -/
def block (g : Generator σ) (start n : Nat) : List Record :=
  (List.range n).map fun i => g.recordAt (start + i)

@[simp]
theorem block_zero (g : Generator σ) (start : Nat) : g.block start 0 = [] := rfl

@[simp]
theorem block_succ (g : Generator σ) (start n : Nat) :
    g.block start (n + 1) = g.recordAt start :: g.block (start + 1) n := by
  unfold block
  rw [List.range_succ_eq_map, List.map_cons, List.map_map, Nat.add_zero]
  congr 1
  apply List.map_congr_left
  intro i _
  rw [Function.comp_apply, Nat.succ_eq_add_one, Nat.add_assoc, Nat.add_comm 1]

section Stream

variable {g : Generator σ}

/-- Along the stream only the source changes. -/
theorem model_volume_after (h : g.model.Denoted) (n : Nat) :
    (g.after n).model = g.model ∧ (g.after n).volume = g.volume := by
  induction n with
  | zero => exact ⟨rfl, rfl⟩
  | succ n ih =>
    obtain ⟨r, source, hfetch⟩ := exists_fetch_eq_ok (g := g.after n) (ih.1 ▸ h)
    simp only [after, hfetch]
    exact ih

/-- Each call of `fetch` gives the next record of the stream. -/
theorem fetch_after (h : g.model.Denoted) (n : Nat) :
    (g.after n).fetch = .ok (g.recordAt n, g.after (n + 1)) := by
  obtain ⟨r, source, hfetch⟩ :=
    exists_fetch_eq_ok (g := g.after n) ((model_volume_after h n).1 ▸ h)
  simp only [recordAt, after, hfetch]

/-- A loop of `fetch` gives a block of the stream: by induction on its length, where what was
collected before stands in front. -/
theorem fetchManyOnto_after {α : Type} (h : g.model.Denoted) (f : Record → α) (n start : Nat)
    (before : List α) :
    fetchManyOnto f n before (g.after start) =
      .ok (before.reverse ++ (g.block start n).map f, g.after (start + n)) := by
  induction n generalizing start before with
  | zero => simp [fetchManyOnto]
  | succ n ih =>
    have hplace : start + 1 + n = start + (n + 1) := by omega
    simp only [fetchManyOnto, fetch_after h start, ok_bind, ih (start + 1), hplace]
    simp

end Stream

end Generator

/-! ## Calls -/

/-- A call of a generator, for records or for objects of a type. -/
inductive Call : Type 1 where
  | fetch
  | fetchAll
  | fetchObject (τ : Type) [SetterTarget τ]
  | fetchAllObjects (τ : Type) [SetterTarget τ]
  | fetchObjectWith {τ : Type} [Inhabited τ] (table : SetterTable τ)
  | fetchAllObjectsWith {τ : Type} [Inhabited τ] (table : SetterTable τ)

/-- What a call returns: records or objects in order, one of them for a single call, or the setter
it misses. -/
inductive Answer : Type 1 where
  | records (rs : List Record)
  | objects {τ : Type} (xs : List τ)
  | failure (cause : MappingError)

/-- The objects that a result consists of, or what it says is missing. -/
def Answer.ofResult {α τ : Type} (objects : α → List τ) : Except MappingError α → Answer
  | .ok result => .objects (objects result)
  | .error cause => .failure cause

namespace Generator

variable {σ : Type} [RandomSource σ]

/-- What a call answers and the generator it returns. -/
def perform (g : Generator σ) : Call → Except DrawError (Answer × Generator σ)
  | .fetch => g.fetch.map (Prod.map (fun r => .records [r]) id)
  | .fetchAll => g.fetchAll.map (Prod.map .records id)
  | @Call.fetchObject τ _ => (g.fetchObject τ).map (Prod.map (.ofResult ([·])) id)
  | @Call.fetchAllObjects τ _ => (g.fetchAllObjects τ).map (Prod.map (.ofResult id) id)
  | @Call.fetchObjectWith _ _ table =>
    (g.fetchObjectWith table).map (Prod.map (.ofResult ([·])) id)
  | @Call.fetchAllObjectsWith _ _ table =>
    (g.fetchAllObjectsWith table).map (Prod.map (.ofResult id) id)

/-- The answers of calls made one after the other, each of the generator that the one before it
returns, and the generator after them. -/
def run (g : Generator σ) : List Call → Except DrawError (List Answer × Generator σ)
  | [] => .ok ([], g)
  | call :: calls => do
    let (answer, g) ← g.perform call
    let (answers, g) ← g.run calls
    .ok (answer :: answers, g)

end Generator

/-- What a call does to the stream: it takes a number of records and answers with a function of
them, or it finds a setter missing and takes none. -/
inductive Effect : Type 1 where
  | takes (n : Nat) (answer : List Record → Answer)
  | fails (cause : MappingError)

namespace Effect

/-- The number of records taken off the stream. -/
def size : Effect → Nat
  | takes n _ => n
  | fails _ => 0

/-- The answer on the block of records taken. -/
def answer : Effect → List Record → Answer
  | takes _ answer, block => answer block
  | fails cause, _ => .failure cause

/-- Taking `n` records, each delivered to an object through the mapper, if there is one. -/
def mapped {τ : Type} [Inhabited τ] (n : Nat) : Except MappingError (Mapper τ) → Effect
  | .ok mapper => takes n fun block => .objects (block.map mapper.map)
  | .error cause => fails cause

end Effect

namespace Call

/-- The effect of a call on a generator with a model and a volume. -/
def effect (model : Model) (volume : UInt64) : Call → Effect
  | fetch => .takes 1 .records
  | fetchAll => .takes volume.toNat .records
  | @fetchObject τ _ => .mapped 1 (Mapper.forTarget τ model)
  | @fetchAllObjects τ _ => .mapped volume.toNat (Mapper.forTarget τ model)
  | @fetchObjectWith _ _ table => .mapped 1 (Mapper.fromTable model table)
  | @fetchAllObjectsWith _ _ table => .mapped volume.toNat (Mapper.fromTable model table)

/-- The number of records that calls take, one after the other. -/
def taken (model : Model) (volume : UInt64) (calls : List Call) : Nat :=
  (calls.map fun call => (call.effect model volume).size).sum

end Call

/-! ## Calls on the stream -/

namespace Generator

variable {σ τ : Type} [RandomSource σ]

section Mapped

variable [Inhabited τ] {g : Generator σ} (h : g.model.Denoted) (start : Nat)
  (mapper : Except MappingError (Mapper τ))

include h

/-- A call for one object takes one record, unless a setter is missing. -/
theorem fetchMapped_after :
    ((g.after start).fetchMapped mapper).map (Prod.map (.ofResult ([·])) id) =
      .ok ((Effect.mapped 1 mapper).answer (g.block start (Effect.mapped 1 mapper).size),
        g.after (start + (Effect.mapped 1 mapper).size)) := by
  cases mapper with
  | error cause => rfl
  | ok mapper =>
    rw [fetchMapped, fetch_after h start]
    rfl

/-- A call for a batch of objects takes a batch of records, unless a setter is missing. -/
theorem fetchAllMapped_after :
    ((g.after start).fetchAllMapped mapper).map (Prod.map (.ofResult id) id) =
      .ok ((Effect.mapped g.volume.toNat mapper).answer
          (g.block start (Effect.mapped g.volume.toNat mapper).size),
        g.after (start + (Effect.mapped g.volume.toNat mapper).size)) := by
  cases mapper with
  | error cause => rfl
  | ok mapper =>
    have hloop := fetchManyOnto_after h mapper.map g.volume.toNat start []
    rw [fetchAllMapped, (model_volume_after h start).2, hloop]
    rfl

end Mapped

/-- One call takes the block of its effect off the stream: by the six kinds of calls. -/
theorem perform_after {g : Generator σ} (h : g.model.Denoted) (start : Nat) (call : Call) :
    (g.after start).perform call =
      .ok ((call.effect g.model g.volume).answer
          (g.block start (call.effect g.model g.volume).size),
        g.after (start + (call.effect g.model g.volume).size)) := by
  obtain ⟨hmodel, hvolume⟩ := model_volume_after h start
  cases call with
  | fetch =>
    unfold perform
    rw [fetch_after h start]
    rfl
  | fetchAll =>
    have hloop := fetchManyOnto_after h id g.volume.toNat start []
    unfold perform fetchAll
    rw [hvolume, hloop, List.map_id]
    rfl
  | fetchObject τ =>
    have hone := fetchMapped_after h start (Mapper.forTarget τ g.model)
    unfold perform fetchObject
    rw [hmodel]
    exact hone
  | fetchAllObjects τ =>
    have hbatch := fetchAllMapped_after h start (Mapper.forTarget τ g.model)
    unfold perform fetchAllObjects
    rw [hmodel]
    exact hbatch
  | fetchObjectWith table =>
    have hone := fetchMapped_after h start (Mapper.fromTable g.model table)
    unfold perform fetchObjectWith
    rw [hmodel]
    exact hone
  | fetchAllObjectsWith table =>
    have hbatch := fetchAllMapped_after h start (Mapper.fromTable g.model table)
    unfold perform fetchAllObjectsWith
    rw [hmodel]
    exact hbatch

theorem eq_error_of_mapped {cause : MappingError} [Inhabited τ] {n : Nat}
    {mapper : Except MappingError (Mapper τ)} (h : Effect.mapped n mapper = .fails cause) :
    mapper = .error cause := by
  cases mapper with
  | error cause' => exact congrArg Except.error (Effect.fails.inj h)
  | ok mapper => simp [Effect.mapped] at h

/-- Without a mapper the generator comes back as it was given. -/
@[simp]
theorem fetchMapped_error [Inhabited τ] (g : Generator σ) (cause : MappingError) :
    g.fetchMapped (.error cause : Except MappingError (Mapper τ)) = .ok (.error cause, g) := rfl

@[simp]
theorem fetchAllMapped_error [Inhabited τ] (g : Generator σ) (cause : MappingError) :
    g.fetchAllMapped (.error cause : Except MappingError (Mapper τ)) = .ok (.error cause, g) := rfl

/-- A call that misses a setter says so before anything is drawn, whatever the model, the volume and
the source, and returns the generator it was given. -/
theorem perform_of_fails {g : Generator σ} {call : Call} {cause : MappingError}
    (h : call.effect g.model g.volume = .fails cause) :
    g.perform call = .ok (.failure cause, g) := by
  cases call with
  | fetch => simp [Call.effect] at h
  | fetchAll => simp [Call.effect] at h
  | fetchObject τ =>
    have hmapper := eq_error_of_mapped h
    simp [perform, fetchObject, hmapper, Answer.ofResult]
  | fetchAllObjects τ =>
    have hmapper := eq_error_of_mapped h
    simp [perform, fetchAllObjects, hmapper, Answer.ofResult]
  | fetchObjectWith table =>
    have hmapper := eq_error_of_mapped h
    simp [perform, fetchObjectWith, hmapper, Answer.ofResult]
  | fetchAllObjectsWith table =>
    have hmapper := eq_error_of_mapped h
    simp [perform, fetchAllObjectsWith, hmapper, Answer.ofResult]

/-! ## Sequences of calls -/

@[simp]
theorem taken_cons (model : Model) (volume : UInt64) (call : Call) (calls : List Call) :
    Call.taken model volume (call :: calls) =
      (call.effect model volume).size + Call.taken model volume calls := by
  unfold Call.taken
  rw [List.map_cons, List.sum_cons]

/-- A run from a place of the stream: by induction on the calls, where the place moves on by what
each call takes. -/
theorem run_after {g : Generator σ} (h : g.model.Denoted) (start : Nat) (calls : List Call) :
    ∃ answers, (g.after start).run calls =
        .ok (answers, g.after (start + Call.taken g.model g.volume calls)) ∧
      answers.length = calls.length ∧
      ∀ (i : Nat) (call : Call), calls[i]? = some call →
        answers[i]? = some ((call.effect g.model g.volume).answer
          (g.block (start + Call.taken g.model g.volume (calls.take i))
            (call.effect g.model g.volume).size)) := by
  induction calls generalizing start with
  | nil => exact ⟨[], rfl, rfl, fun i call hi => by simp at hi⟩
  | cons first calls ih =>
    obtain ⟨answers, hrun, hlength, hanswers⟩ :=
      ih (start + (first.effect g.model g.volume).size)
    have hfirst := perform_after h start first
    refine ⟨(first.effect g.model g.volume).answer
      (g.block start (first.effect g.model g.volume).size) :: answers, ?_, ?_, ?_⟩
    · simp [run, hfirst, hrun, Nat.add_assoc]
    · rw [List.length_cons, List.length_cons, hlength]
    · intro i call hi
      cases i with
      | zero =>
        rw [List.getElem?_cons_zero, Option.some.injEq] at hi
        subst hi
        rfl
      | succ i =>
        rw [List.getElem?_cons_succ] at hi
        rw [List.getElem?_cons_succ, hanswers i call hi, List.take_succ_cons, taken_cons,
          Nat.add_assoc]

/-- Calls of a generator of parsed declarations answer with consecutive blocks of its stream, which
is the records of repeated calls of `fetch`: each call answers on the block that begins where the
blocks of the calls before it end, and returns the generator at the end of its own. A call that
misses a setter takes nothing: it returns the generator it was given, for any generator. -/
theorem run_eq_blocks {declarations : List (String × String)} {model : Model}
    (h : Model.parse declarations = .ok model) (volume : UInt64) (source : σ) :
    let g : Generator σ := ⟨model, volume, source⟩
    (∀ n, (g.after n).fetch = .ok (g.recordAt n, g.after (n + 1)) ∧
        (g.after n).model = model ∧ (g.after n).volume = volume) ∧
      (∀ calls, ∃ answers, g.run calls = .ok (answers, g.after (Call.taken model volume calls)) ∧
        answers.length = calls.length ∧
        ∀ (i : Nat) (call : Call), calls[i]? = some call →
          answers[i]? = some ((call.effect model volume).answer
            (g.block (Call.taken model volume (calls.take i)) (call.effect model volume).size))) ∧
      ∀ (g' : Generator σ) (call : Call) (cause : MappingError),
        call.effect g'.model g'.volume = .fails cause →
          g'.perform call = .ok (.failure cause, g') := by
  intro g
  have hdenoted : g.model.Denoted := Model.denoted_of_parse h
  refine ⟨fun n => ⟨fetch_after hdenoted n, model_volume_after hdenoted n⟩, fun calls => ?_,
    fun g' call cause => perform_of_fails⟩
  have hrun := run_after hdenoted 0 calls
  simp only [Nat.zero_add] at hrun
  exact hrun

/-- A batch of two, a call that finds no setter and one more record take three records. -/
theorem run_batch_failure_single :
    ∃ model, Model.parse [("roll", "i:1-6")] = .ok model ∧
      let g : Generator Script := ⟨model, 2, .ofWords [7]⟩
      ∃ answers, g.run [.fetchAll, .fetchObjectWith (.empty "Dice" : SetterTable Nat), .fetch] =
          .ok (answers, g.after 3) ∧
        answers[2]? = some (.records (g.block 2 1)) := by
  refine ⟨_, rfl, ?_⟩
  obtain ⟨answers, hrun, -, hanswers⟩ :=
    (run_eq_blocks (rfl : Model.parse [("roll", "i:1-6")] = .ok _) 2 (Script.ofWords [7])).2.1
      [.fetchAll, .fetchObjectWith (.empty "Dice" : SetterTable Nat), .fetch]
  exact ⟨answers, hrun, hanswers 2 .fetch rfl⟩

end Generator

end Specimen
