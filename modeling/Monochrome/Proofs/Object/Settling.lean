import Monochrome.NumericFunction.Storage
import Monochrome.Proofs.Outcome

/-!
# Readings that end

Reading a value, a list of values or the data of a stream follows one chain of references of limited
length, so it never fails for being nested without end.
-/

namespace Monochrome

open Outcome

/-! ## Values -/

namespace Object

variable {object : Object}

@[simp] theorem asText_ne_endless : object.asText ≠ .error .endless := by
  unfold asText
  split <;> simp

@[simp] theorem asNumber_ne_endless : object.asNumber ≠ .error .endless := by
  unfold asNumber
  split <;> simp

@[simp] theorem asDictionary_ne_endless : object.asDictionary ≠ .error .endless := by
  unfold asDictionary
  split <;> simp

@[simp] theorem asStream_ne_endless : object.asStream ≠ .error .endless := by
  unfold asStream
  split <;> simp

end Object

@[simp] theorem Dictionary.require_ne_endless {dictionary : Dictionary} {key : String} :
    dictionary.require key ≠ .error .endless := by
  unfold require
  split <;> simp

namespace Document

variable {document : Document} {object : Object} {dictionary : Dictionary} {key : String}

theorem followChain_ne_endless {steps : Nat} {location : Option ObjectId} :
    document.followChain steps location object ≠ .error .endless := by
  induction steps generalizing location object with
  | zero => simp [followChain]
  | succ steps inductionHypothesis =>
      unfold followChain
      split
      · split
        · exact inductionHypothesis
        · simp
      · simp

@[simp] theorem resolve_ne_endless : document.resolve object ≠ .error .endless := by
  simp [resolve, resolveWithId, map_eq_error, followChain_ne_endless]

@[simp] theorem entry?_ne_endless : document.entry? dictionary key ≠ .error .endless := by
  unfold entry?
  split <;> simp [map_eq_error]

@[simp] theorem eitherEntry?_ne_endless {other : String} :
    document.eitherEntry? dictionary key other ≠ .error .endless := by
  refine bind_ne_error entry?_ne_endless fun found => ?_
  cases found <;> simp [pure_ne_error]

@[simp] theorem integerEntry?_ne_endless :
    document.integerEntry? dictionary key ≠ .error .endless := by
  simp [map_eq_error, integerEntry?]

@[simp] theorem numbers_ne_endless : document.numbers object ≠ .error .endless := by
  refine bind_ne_error resolve_ne_endless fun value => ?_
  split
  · exact mapM_ne_error fun item => bind_ne_error resolve_ne_endless fun _ => by simp
  · simp

@[simp] theorem numbersOr_ne_endless {default : List Float32} :
    document.numbersOr dictionary key default ≠ .error .endless := by
  unfold numbersOr
  split <;> simp

end Document

/-! ## Data -/

namespace Filter

variable {document : Document} {dictionary : Dictionary}

theorem decode_ne_endless {filter : Filter} {parameters : Parameters} {data : Bytes} :
    filter.decode parameters data ≠ .error .endless := by
  have finish (fault : ImageFault) (decoded : Option Bytes) :
      finishDecoding parameters fault decoded ≠ .error .endless := by
    unfold finishDecoding undoPredictor
    repeat' split
    all_goals simp
  cases filter <;> simp [decode, finish]

theorem parametersOf_ne_endless {dictionary : Option Dictionary} :
    parametersOf document dictionary ≠ .error .endless := by
  cases dictionary <;> simp [parametersOf, Parameters.ofDictionary, bind_eq_error, map_eq_error]

theorem names_ne_endless : names document dictionary ≠ .error .endless := by
  refine bind_ne_error Document.eitherEntry?_ne_endless fun found => ?_
  split
  case h_4 =>
    exact mapM_ne_error fun item => bind_ne_error Document.resolve_ne_endless fun _ => by simp
  all_goals simp [pure_ne_error, throw_eq_error]

theorem chain_ne_endless : chain document dictionary ≠ .error .endless := by
  have parameters (count : Nat) :
      parameterDictionaries document dictionary count ≠ .error .endless := by
    refine bind_ne_error Document.eitherEntry?_ne_endless fun found => ?_
    split <;> simp [pure_ne_error, throw_eq_error]
  refine bind_ne_error names_ne_endless fun names => bind_ne_error (parameters _) fun found => ?_
  refine mapM_ne_error fun named => ?_
  dsimp only
  split <;> simp

theorem decodeChain_ne_endless {filters : List (Filter × Option Dictionary)} {data : Bytes} :
    decodeChain document filters data ≠ .error .endless := by
  induction filters generalizing data with
  | nil => simp [decodeChain]
  | cons first rest inductionHypothesis =>
      unfold decodeChain
      split
      · split <;> simp
      · refine bind_ne_error parametersOf_ne_endless fun parameters => ?_
        exact bind_ne_error decode_ne_endless fun decoded => inductionHypothesis

end Filter

@[simp] theorem Stream.content_ne_endless {document : Document} {stream : Stream} :
    stream.content document ≠ .error .endless := by
  have decodes : stream.decode document ≠ .error .endless :=
    bind_ne_error Filter.chain_ne_endless fun _ => Filter.decodeChain_ne_endless
  refine bind_ne_error decodes fun decoded => ?_
  split <;> simp [pure_ne_error, throw_eq_error]

end Monochrome
