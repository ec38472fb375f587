import Mathlib.Data.List.Forall2

/-!
# A chain of hashes

Each link hashes the hash before it together with the next piece of data. A hash has a fixed
length, so two chains that end in the same hash have hashed the same pieces, unless two strings
that stand at one place of the chains collide.
-/

namespace HashChain

variable {α : Type*} (hash : List α → List α)

/-- The hash that a chain from `h` ends in. -/
def chain (h : List α) : List (List α) → List α
  | [] => h
  | d :: rest => chain (hash (h ++ d)) rest

/-- The strings that are hashed on the way. -/
def hashed (h : List α) : List (List α) → List (List α)
  | [] => []
  | d :: rest => (h ++ d) :: hashed (hash (h ++ d)) rest

/-- As many strings on one side as on the other, and none collides with the one across from it. -/
def Apart (xs ys : List (List α)) : Prop := List.Forall₂ (fun x y => hash x = hash y → x = y) xs ys

variable {hash}

theorem Apart.self (xs : List (List α)) : Apart hash xs xs :=
  List.forall₂_same.2 fun _ _ _ => rfl

theorem eq_of_chain_eq {n : ℕ} (hlen : ∀ x, (hash x).length = n) :
    ∀ {data data' : List (List α)} {h h' : List α}, h.length = h'.length →
      Apart hash (hashed hash h data) (hashed hash h' data') →
      chain hash h data = chain hash h' data' → h = h' ∧ data = data'
  | [], [], _, _, _, _, heq => ⟨heq, rfl⟩
  | [], _ :: _, _, _, _, hapart, _ => by cases hapart
  | _ :: _, [], _, _, _, hapart, _ => by cases hapart
  | d :: rest, d' :: rest', h, h', hh, hapart, heq => by
    obtain ⟨hhead, htail⟩ := List.forall₂_cons.1 hapart
    obtain ⟨hhash, hrest⟩ := eq_of_chain_eq hlen (by rw [hlen, hlen]) htail heq
    obtain ⟨rfl, rfl⟩ := List.append_inj (hhead hhash) hh
    exact ⟨rfl, by rw [hrest]⟩

end HashChain
