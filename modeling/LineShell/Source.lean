import LineShell.Bytes
import LineShell.Fault

/-!
Input, read a line at a time. A source hands out its bytes in fills of any size, and a fill may be
interrupted or fail instead; an interrupted one is simply asked for again.
-/
namespace LineShell

/-- What one request to the source for more bytes brings. A fill of bytes has at least one. The
fault of a `failed` fill is never an interruption: that is always `interrupted`, and only that is
asked for again. -/
inductive Fill where
  | bytes (first : UInt8) (rest : Bytes)
  | interrupted
  | failed (fault : Fault)
  deriving DecidableEq, Repr

/-- The fills still to come; after the last one the source is at its end. -/
abbrev Source := List Fill

def Fill.size : Fill → Nat
  | bytes _ rest => rest.length + 1
  | interrupted => 1
  | failed _ => 1

/-- The line at the front, newline included, and what follows it; `none` without a newline. -/
def cutLine? (data : Bytes) : Option (Bytes × Bytes) :=
  match data.dropWhile (· != Bytes.newline) with
  | [] => none
  | newline :: left => some (data.takeWhile (· != Bytes.newline) ++ [newline], left)

namespace Source

/-- A bound on the reads that bring something; every one of them makes it smaller. -/
def size : Source → Nat
  | [] => 0
  | fill :: source => fill.size + size source

def unread : Bytes → Source → Source
  | [], source => source
  | b :: rest, source => .bytes b rest :: source

/-- Bytes through the first newline, or to the end. Those read before a fault are lost with it. -/
def readThrough : Source → Except Fault Bytes × Source
  | [] => (.ok [], [])
  | .interrupted :: source => readThrough source
  | .failed fault :: source => (.error fault, source)
  | .bytes b rest :: source =>
    match cutLine? (b :: rest) with
    | some (line, left) => (.ok line, unread left source)
    | none =>
      match readThrough source with
      | (.ok more, left) => (.ok (b :: rest ++ more), left)
      | (.error fault, left) => (.error fault, left)

/-- The next line with its newline, which only the last line may lack; `none` at the end. -/
def readLine (source : Source) : Except Fault (Option Bytes) × Source :=
  match readThrough source with
  | (.ok [], left) => (.ok none, left)
  | (.ok (b :: rest), left) => (.ok (some (b :: rest)), left)
  | (.error fault, left) => (.error fault, left)

def readLines : Nat → Source → List (Except Fault (Option Bytes))
  | 0, _ => []
  | n + 1, source => (readLine source).1 :: readLines n (readLine source).2

/-- Cuts bytes into fills of at most that size, or into one fill if the size is zero. -/
def ofBytes (size : Nat) : Bytes → Source
  | [] => []
  | b :: rest =>
    if size = 0 then [.bytes b rest]
    else .bytes b (rest.take (size - 1)) :: ofBytes size (rest.drop (size - 1))
termination_by data => data.length
decreasing_by
  exact Nat.lt_succ_of_le (List.length_drop ▸ Nat.sub_le _ _)

/-- Fills whose bytes are the data, with each marked event between the bytes before its offset and
those after it. Events come in the order of their offsets; one past the end never happens. -/
def deliver (size : Nat) (data : Bytes) : List (Nat × Fill) → Source :=
  go 0 data
where
  go (start : Nat) (data : Bytes) : List (Nat × Fill) → Source
    | [] => ofBytes size data
    | (offset, event) :: events =>
      if offset ≤ start + data.length then
        ofBytes size (data.take (offset - start)) ++
          event :: go (max start offset) (data.drop (offset - start)) events
      else go start data events

@[simp] theorem size_nil : size [] = 0 := rfl

@[simp] theorem size_cons (fill : Fill) (source : Source) :
    size (fill :: source) = fill.size + size source := rfl

@[simp] theorem size_unread (bytes : Bytes) (source : Source) :
    size (unread bytes source) = bytes.length + size source := by
  cases bytes <;> simp [unread, Fill.size]

end Source

theorem append_of_cutLine? {data line left : Bytes} (h : cutLine? data = some (line, left)) :
    line ++ left = data := by
  unfold cutLine? at h
  split at h
  · simp at h
  · next newline left' hd =>
    simp only [Option.some.injEq, Prod.mk.injEq] at h
    obtain ⟨rfl, rfl⟩ := h
    simp [← hd]

theorem cutLine?_line_ne_nil {data line left : Bytes} (h : cutLine? data = some (line, left)) :
    line ≠ [] := by
  unfold cutLine? at h
  split at h <;> simp_all
  obtain ⟨rfl, -⟩ := h
  simp

namespace Source

theorem size_readThrough_le (source : Source) : (readThrough source).2.size ≤ source.size := by
  fun_induction readThrough source with
  | case1 => simp
  | case2 source ih => simp [Fill.size]; omega
  | case3 fault source => simp [Fill.size]
  | case4 b rest source line left h =>
    have := congrArg List.length (append_of_cutLine? h)
    simp [Fill.size] at this ⊢
    omega
  | case5 b rest source h more left hr ih => simp_all [Fill.size]; omega
  | case6 b rest source h fault left hr ih => simp_all [Fill.size]; omega

theorem size_readThrough_lt {source left : Source} {b : UInt8} {bytes : Bytes}
    (h : readThrough source = (.ok (b :: bytes), left)) : left.size < source.size := by
  fun_induction readThrough source generalizing b bytes left with
  | case1 => simp at h
  | case2 source ih => have := ih h; simp [Fill.size]; omega
  | case3 fault source => simp at h
  | case4 c rest source line left' hc =>
    have hl := congrArg List.length (append_of_cutLine? hc)
    simp only [Prod.mk.injEq, Except.ok.injEq] at h
    obtain ⟨rfl, rfl⟩ := h
    simp [Fill.size] at hl ⊢
    omega
  | case5 c rest source hc more left' hr ih =>
    have := size_readThrough_le source
    simp_all [Fill.size]
    omega
  | case6 c rest source hc fault left' hr ih => simp at h

theorem size_readLine_lt {source : Source} {line : Bytes}
    (h : (readLine source).1 = .ok (some line)) : (readLine source).2.size < source.size := by
  unfold readLine at h ⊢
  split
  · simp_all
  · next b rest left hr => exact size_readThrough_lt hr
  · simp_all

end Source
end LineShell
