/-!
# Entries in the order of their keys

Objects, creation tables and the mailbox store all keep one value per key and are read in
increasing key order. They are lists of pairs, so that the order is there to be seen.

* `MailServer.Keyed.insert` puts a value under a key and keeps the order.
* `MailServer.Keyed.find?` is the value under a key.
-/

namespace MailServer.Keyed

variable {κ α : Type}

/-- Puts `v` under `k`, in place of a value that is there. Keys stay in increasing order. -/
def insert [LT κ] [DecidableLT κ] (k : κ) (v : α) : List (κ × α) → List (κ × α)
  | [] => [(k, v)]
  | (k', v') :: rest =>
    if k < k' then (k, v) :: (k', v') :: rest
    else if k' < k then (k', v') :: insert k v rest
    else (k, v) :: rest

/-- The value under `k`. -/
def find? [DecidableEq κ] (k : κ) : List (κ × α) → Option α
  | [] => none
  | (k', v) :: rest => if k' = k then some v else find? k rest

/-- The entries in key order, a later entry winning over an earlier one of the same key. -/
def ofList [LT κ] [DecidableLT κ] (entries : List (κ × α)) : List (κ × α) :=
  entries.foldl (fun acc (k, v) => insert k v acc) []

end MailServer.Keyed
