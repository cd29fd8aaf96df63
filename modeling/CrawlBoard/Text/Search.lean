
namespace CrawlBoard.Search

variable {α : Type} [BEq α]

def indexOf? (needle : List α) : List α → Option Nat
  | [] => if needle.isEmpty then some 0 else none
  | item :: rest =>
      if needle.isPrefixOf (item :: rest) then some 0
      else (indexOf? needle rest).map (· + 1)

def cut? (needle text : List α) : Option (List α × List α) :=
  (indexOf? needle text).map fun offset => (text.take offset, text.drop (offset + needle.length))

def contains (needle text : List α) : Bool := (indexOf? needle text).isSome

def splitOn (separator : α) : List α → List (List α)
  | [] => [[]]
  | item :: rest =>
      if item == separator then [] :: splitOn separator rest
      else match splitOn separator rest with
        | [] => [[item]]
        | piece :: pieces => (item :: piece) :: pieces

def dropTrailing (keep : α → Bool) (items : List α) : List α :=
  (items.reverse.dropWhile keep).reverse

end CrawlBoard.Search
