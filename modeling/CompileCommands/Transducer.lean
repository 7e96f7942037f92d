/-!
# Transducers

A transducer reads inputs one at a time. Each input moves it to a new state and lets it write
some outputs. Line splitting, decoding and log scanning are all of this shape, so what a run does
on two parts of an input is said once, here: it does what it does on the first part, and goes on
from the state reached there with the second (`run_append`).
-/

namespace CompileCommands

/-- What one input does: the next state, and the outputs written on the way. -/
abbrev Transducer (σ α β : Type) := σ → α → σ × List β

namespace Transducer

variable {σ α β : Type}

def runOnto (step : Transducer σ α β) (written : Array β) (state : σ) : List α → σ × Array β
  | [] => (state, written)
  | x :: xs => runOnto step (written ++ (step state x).2) (step state x).1 xs

/-- The state after a list of inputs, and all outputs in order. -/
def run (step : Transducer σ α β) (state : σ) (inputs : List α) : σ × List β :=
  ((runOnto step #[] state inputs).1, (runOnto step #[] state inputs).2.toList)

theorem runOnto_eq (step : Transducer σ α β) (written : Array β) (state : σ) (inputs : List α) :
    runOnto step written state inputs =
      ((runOnto step #[] state inputs).1, written ++ (runOnto step #[] state inputs).2) := by
  induction inputs generalizing written state with
  | nil => simp [runOnto]
  | cons x xs ih =>
      rw [runOnto, runOnto, ih, ih (#[] ++ _)]
      exact Prod.ext rfl (Array.ext' (by simp))

@[simp] theorem run_nil (step : Transducer σ α β) (state : σ) :
    run step state [] = (state, []) := rfl

theorem run_cons (step : Transducer σ α β) (state : σ) (x : α) (xs : List α) :
    run step state (x :: xs) =
      ((run step (step state x).1 xs).1, (step state x).2 ++ (run step (step state x).1 xs).2) := by
  rw [run, runOnto, runOnto_eq, run]
  simp

theorem run_append (step : Transducer σ α β) (state : σ) (xs ys : List α) :
    run step state (xs ++ ys) =
      ((run step (run step state xs).1 ys).1,
        (run step state xs).2 ++ (run step (run step state xs).1 ys).2) := by
  induction xs generalizing state with
  | nil => simp
  | cons x xs ih => simp [run_cons, ih]

theorem run_concat (step : Transducer σ α β) (state : σ) (xs : List α) (x : α) :
    run step state (xs ++ [x]) =
      ((step (run step state xs).1 x).1, (run step state xs).2 ++ (step (run step state xs).1 x).2) := by
  rw [run_append, run_cons]
  simp

/-- Inputs that leave the state alone only write. -/
theorem run_of_still {step : Transducer σ α β} {state : σ} (write : α → List β) {xs : List α}
    (h : ∀ x ∈ xs, step state x = (state, write x)) :
    run step state xs = (state, xs.flatMap write) := by
  induction xs with
  | nil => rfl
  | cons x xs ih =>
      rw [run_cons, h x List.mem_cons_self, ih fun y hy => h y (List.mem_cons_of_mem _ hy)]
      rfl

/-- Where each input is answered alike but for how the outputs are written, so is a run. -/
theorem run_map {step step' : Transducer σ α β} (rewrite : β → β)
    (h : ∀ s x, step' s x = ((step s x).1, (step s x).2.map rewrite)) (s : σ) (xs : List α) :
    run step' s xs = ((run step s xs).1, (run step s xs).2.map rewrite) := by
  induction xs generalizing s with
  | nil => rfl
  | cons x xs ih => rw [run_cons, run_cons, h, ih, List.map_append]

/-- Outputs written as inputs with a separator between them come back one by one. The last is still
held in the state, since no separator follows it. -/
theorem run_intercalate {step : Transducer σ α β} {start : σ} {separator : α}
    {encode : β → List α} {held : β → σ} (hword : ∀ y, run step start (encode y) = (held y, []))
    (hseparator : ∀ y, step (held y) separator = (start, [y])) (ys : List β) (last : β) :
    run step start ([separator].intercalate ((ys ++ [last]).map encode)) = (held last, ys) := by
  induction ys with
  | nil => simpa using hword last
  | cons y ys ih =>
      obtain ⟨z, zs, hrest⟩ : ∃ z zs, (ys ++ [last]).map encode = z :: zs :=
        List.exists_cons_of_ne_nil (by simp)
      have hcons : [separator].intercalate ((y :: ys ++ [last]).map encode) =
          encode y ++ separator :: [separator].intercalate ((ys ++ [last]).map encode) := by
        rw [List.cons_append, List.map_cons, hrest, List.intercalate_cons_cons]
        simp
      rw [hcons, run_append, hword, run_cons, hseparator, ih]
      rfl

/-! ## Collecting characters -/

theorem push_append (word : String) (c : Char) (cs : List Char) :
    word.push c ++ String.ofList cs = word ++ String.ofList (c :: cs) := by
  rw [String.push_eq_append, String.ofList_cons, String.append_assoc]

/-- Where the inputs for a character put it to the word held, those for some characters put all of
them there. -/
theorem run_collect {step : Transducer σ α β} (hold : String → σ) {encode : Char → List α}
    {cs : List Char}
    (h : ∀ c ∈ cs, ∀ word, run step (hold word) (encode c) = (hold (word.push c), []))
    (word : String) :
    run step (hold word) (cs.flatMap encode) = (hold (word ++ String.ofList cs), []) := by
  induction cs generalizing word with
  | nil => simp
  | cons c cs ih =>
      rw [List.flatMap_cons, run_append, h c List.mem_cons_self,
        ih fun d hd => h d (List.mem_cons_of_mem _ hd), push_append]
      rfl

/-- The case of `run_collect` in which each character is its own input. -/
theorem run_push {step : Transducer σ Char β} (hold : String → σ) {cs : List Char}
    (h : ∀ c ∈ cs, ∀ word, step (hold word) c = (hold (word.push c), [])) (word : String) :
    run step (hold word) cs = (hold (word ++ String.ofList cs), []) := by
  have hsingle : ∀ c ∈ cs, ∀ word, run step (hold word) [c] = (hold (word.push c), []) := by
    intro c hc word
    rw [run_cons, h c hc, run_nil]
    rfl
  simpa using run_collect hold hsingle word

end Transducer

end CompileCommands
