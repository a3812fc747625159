import BoingNetwork.Primitives.Basic
import Mathlib.Data.List.Sort

/-!
# Routes through constant-product pools

The SDK searches the routes from one token to another depth first, each pool at most once,
and quotes every hop.  The search is cut off as soon as it has as many routes as are asked
for, and only what was found by then is sorted.  So the best routes are returned if there are
no more routes than that, and otherwise the best of those that come first in the search.
-/

namespace BoingNetwork.Sdk

/-! ## Quotes -/

inductive RoutingError where
  | range (message : String)
  | other (message : String)
deriving DecidableEq

structure CpPoolVenue where
  pool : AccountId
  tokenA : AccountId
  tokenB : AccountId
  reserveA : ℤ
  reserveB : ℤ
  feeBps : ℤ
deriving DecidableEq

structure CpQuoteResult where
  amountOut : ℤ
  tokenOut : AccountId
  directionForSwapCalldata : ℤ

def constantProductAmountOutNoFee (reserveIn reserveOut amountIn : ℤ) : Except RoutingError ℤ :=
  if reserveIn < 0 ∨ reserveOut < 0 ∨ amountIn < 0 then
    throw (.range "reserves and amountIn must be non-negative")
  else if reserveIn + amountIn = 0 then return 0
  else return reserveOut * amountIn / (reserveIn + amountIn)

def constantProductAmountOutWithFeeBps (reserveIn reserveOut amountIn feeBps : ℤ) :
    Except RoutingError ℤ :=
  if feeBps < 0 ∨ 10000 < feeBps then
    throw (.range "feeBps must satisfy 0 <= feeBps <= 10000")
  else do
    let output ← constantProductAmountOutNoFee reserveIn reserveOut amountIn
    return output * (10000 - feeBps) / 10000

def quoteCpPoolSwap (venue : CpPoolVenue) (tokenIn : AccountId) (amountIn : ℤ) :
    Except RoutingError CpQuoteResult :=
  if amountIn < 0 then throw (.range "amountIn must be non-negative")
  else if tokenIn = venue.tokenA then do
    let amountOut ← constantProductAmountOutWithFeeBps venue.reserveA venue.reserveB amountIn
      venue.feeBps
    return ⟨amountOut, venue.tokenB, 0⟩
  else if tokenIn = venue.tokenB then do
    let amountOut ← constantProductAmountOutWithFeeBps venue.reserveB venue.reserveA amountIn
      venue.feeBps
    return ⟨amountOut, venue.tokenA, 1⟩
  else throw (.other "quoteCpPoolSwap: tokenIn is not a pool token")

/-! ## The search -/

structure RouteHop where
  venue : CpPoolVenue
  tokenIn : AccountId
  tokenOut : AccountId
  amountIn : ℤ
  amountOut : ℤ
  directionForSwapCalldata : ℤ
deriving DecidableEq

@[ext]
structure CpSwapRoute where
  hops : List RouteHop
  tokenIn : AccountId
  tokenOut : AccountId
  amountIn : ℤ
  amountOut : ℤ
deriving DecidableEq

def NATIVE_DEX_MULTIHOP_ROUTER_MAX_POOLS : ℕ := 6

def edgesFromToken (venues : List CpPoolVenue) (token : AccountId) : List CpPoolVenue :=
  venues.filter fun venue => decide (venue.tokenA = token ∨ venue.tokenB = token)

def hopThrough (venue : CpPoolVenue) (token : AccountId) (amount : ℤ) : Option RouteHop :=
  match quoteCpPoolSwap venue token amount with
  | .error _ => none
  | .ok quote =>
    if quote.amountOut = 0 then none
    else some ⟨venue, token, quote.tokenOut, amount, quote.amountOut,
      quote.directionForSwapCalldata⟩

section Search

variable (venues : List CpPoolVenue) (tokenIn tokenOut : AccountId) (amountIn : ℤ) (maxRoutes : ℕ)

def routeOf (path : List RouteHop) (hop : RouteHop) : CpSwapRoute :=
  ⟨path ++ [hop], tokenIn, tokenOut, amountIn, hop.amountOut⟩

/-- The loop over the pools of a token; `descend` searches on behind a hop. -/
def scanEdges (descend : RouteHop → List CpSwapRoute → List CpSwapRoute) (lastHop : Bool)
    (token : AccountId) (amount : ℤ) (path : List RouteHop) (visited : List AccountId) :
    List CpPoolVenue → List CpSwapRoute → List CpSwapRoute
  | [], routes => routes
  | venue :: rest, routes =>
    if venue.pool ∈ visited then
      scanEdges descend lastHop token amount path visited rest routes
    else match hopThrough venue token amount with
      | none => scanEdges descend lastHop token amount path visited rest routes
      | some hop =>
        if hop.tokenOut = tokenOut then
          scanEdges descend lastHop token amount path visited rest
            (routes ++ [routeOf tokenIn tokenOut amountIn path hop])
        else if lastHop then
          scanEdges descend lastHop token amount path visited rest routes
        else if maxRoutes ≤ (descend hop routes).length then descend hop routes
        else scanEdges descend lastHop token amount path visited rest (descend hop routes)

/-- The search with a number of hops left. -/
def dfs : ℕ → AccountId → ℤ → List RouteHop → List AccountId → List CpSwapRoute →
    List CpSwapRoute
  | 0, _, _, _, _, routes => routes
  | left + 1, token, amount, path, visited, routes =>
    if maxRoutes ≤ routes.length then routes
    else scanEdges tokenIn tokenOut amountIn maxRoutes
      (fun hop => dfs left hop.tokenOut hop.amountOut (path ++ [hop])
        (hop.venue.pool :: visited))
      (left == 0) token amount path visited (edgesFromToken venues token) routes

/-- The routes that are found before the search ends or is cut off. -/
def searchedRoutes (maxHops : ℕ) : List CpSwapRoute :=
  if tokenIn = tokenOut then [⟨[], tokenIn, tokenOut, amountIn, amountIn⟩]
  else dfs venues tokenIn tokenOut amountIn maxRoutes maxHops tokenIn amountIn [] [] []

def findBestCpRoutes (maxHops : ℕ) : Except RoutingError (List CpSwapRoute) :=
  if maxHops < 1 then throw (.range "maxHops must be >= 1")
  else if NATIVE_DEX_MULTIHOP_ROUTER_MAX_POOLS < maxHops then
    throw (.range "maxHops cannot exceed 6 (multihop router cap)")
  else if tokenIn = tokenOut then return [⟨[], tokenIn, tokenOut, amountIn, amountIn⟩]
  else return ((searchedRoutes venues tokenIn tokenOut amountIn maxRoutes maxHops).insertionSort
    fun left right => right.amountOut ≤ left.amountOut).take maxRoutes

/-! ## All routes -/

/-- All routes that go on through a pool, given those behind each hop. -/
def routesThrough (below : RouteHop → List CpSwapRoute) (token : AccountId) (amount : ℤ)
    (path : List RouteHop) (visited : List AccountId) (venue : CpPoolVenue) : List CpSwapRoute :=
  if venue.pool ∈ visited then []
  else match hopThrough venue token amount with
    | none => []
    | some hop =>
      if hop.tokenOut = tokenOut then [routeOf tokenIn tokenOut amountIn path hop] else below hop

/-- The search without a cut. -/
def routesFrom : ℕ → AccountId → ℤ → List RouteHop → List AccountId → List CpSwapRoute
  | 0, _, _, _, _ => []
  | left + 1, token, amount, path, visited =>
    (edgesFromToken venues token).flatMap (routesThrough tokenIn tokenOut amountIn
      (fun hop => routesFrom left hop.tokenOut hop.amountOut (path ++ [hop])
        (hop.venue.pool :: visited)) token amount path visited)

def allRoutes (maxHops : ℕ) : List CpSwapRoute :=
  if tokenIn = tokenOut then [⟨[], tokenIn, tokenOut, amountIn, amountIn⟩]
  else routesFrom venues tokenIn tokenOut amountIn maxHops tokenIn amountIn [] []

/-- Every hop takes what the hop before it pays, at the quote of its pool. -/
def Chained : AccountId → ℤ → List RouteHop → Prop
  | _, _, [] => True
  | token, amount, hop :: hops => hop.venue ∈ venues ∧
      hopThrough hop.venue token amount = some hop ∧ Chained hop.tokenOut hop.amountOut hops

structure Reaching (left : ℕ) (token : AccountId) (amount : ℤ) (visited : List AccountId)
    (hops : List RouteHop) : Prop where
  chained : Chained venues token amount hops
  length : hops.length ≤ left
  pools : (hops.map (·.venue.pool)).Nodup
  unvisited : ∀ hop ∈ hops, hop.venue.pool ∉ visited
  ends : hops.getLast?.map (·.tokenOut) = some tokenOut
  before : ∀ hop ∈ hops.dropLast, hop.tokenOut ≠ tokenOut

end Search

/-! ## The cut -/

/-- A search has found the first of all routes; if any are left out, it has enough. -/
def CutOff (limit : ℕ) (all routes result : List CpSwapRoute) : Prop :=
  ∃ found skipped, result = routes ++ found ∧ all = found ++ skipped ∧
    (skipped = [] ∨ limit ≤ result.length)

variable {route : CpSwapRoute}

section Cut

variable {limit : ℕ} {first second routes middle result : List CpSwapRoute}

theorem CutOff.refl : CutOff limit [] routes routes := ⟨[], [], by simp, rfl, .inl rfl⟩

theorem CutOff.stop (enough : limit ≤ routes.length) : CutOff limit first routes routes :=
  ⟨[], first, by simp, rfl, .inr enough⟩

theorem CutOff.halt (cut : CutOff limit first routes middle) (enough : limit ≤ middle.length) :
    CutOff limit (first ++ second) routes middle := by
  obtain ⟨found, skipped, isMiddle, isFirst, -⟩ := cut
  exact ⟨found, skipped ++ second, isMiddle, by rw [isFirst, List.append_assoc], .inr enough⟩

theorem CutOff.trans (cut : CutOff limit first routes middle) (more : middle.length < limit)
    (later : CutOff limit second middle result) : CutOff limit (first ++ second) routes result := by
  obtain ⟨found, skipped, rfl, rfl, ends⟩ := cut
  obtain rfl := ends.resolve_right (Nat.not_le.mpr more)
  obtain ⟨laterFound, laterSkipped, rfl, rfl, laterEnds⟩ := later
  exact ⟨found ++ laterFound, laterSkipped, by simp, by simp, laterEnds⟩

theorem CutOff.push (later : CutOff limit second (routes ++ [route]) result) :
    CutOff limit ([route] ++ second) routes result := by
  obtain ⟨found, skipped, rfl, rfl, ends⟩ := later
  exact ⟨route :: found, skipped, by simp, by simp, ends⟩

end Cut

variable {venues : List CpPoolVenue} (routes : List CpSwapRoute)

section Scan

variable {tokenIn tokenOut : AccountId} {amountIn : ℤ} {maxRoutes : ℕ}

theorem cutOff_scanEdges {descend : RouteHop → List CpSwapRoute → List CpSwapRoute}
    {below : RouteHop → List CpSwapRoute} {lastHop : Bool}
    (isLast : lastHop = true → ∀ hop, below hop = [])
    (descends : ∀ hop routes, CutOff maxRoutes (below hop) routes (descend hop routes))
    (token : AccountId) (amount : ℤ) (path : List RouteHop) (visited : List AccountId)
    (edges : List CpPoolVenue) (routes : List CpSwapRoute) :
    CutOff maxRoutes (edges.flatMap
        (routesThrough tokenIn tokenOut amountIn below token amount path visited)) routes
      (scanEdges tokenIn tokenOut amountIn maxRoutes descend lastHop token amount path visited edges
        routes) := by
  induction edges generalizing routes with
  | nil => exact .refl
  | cons venue rest ih =>
    rw [List.flatMap_cons, routesThrough, scanEdges]
    split
    next => exact ih routes
    next =>
      split
      next => exact ih routes
      next hop _ =>
        split
        next => exact .push (ih _)
        next =>
          split
          next last =>
            rw [isLast last]
            exact ih routes
          next =>
            split
            next enough => exact (descends hop routes).halt enough
            next more => exact (descends hop routes).trans (Nat.not_le.mp more) (ih _)

theorem cutOff_dfs (left : ℕ) (token : AccountId) (amount : ℤ) (path : List RouteHop)
    (visited : List AccountId) (routes : List CpSwapRoute) :
    CutOff maxRoutes (routesFrom venues tokenIn tokenOut amountIn left token amount path visited)
      routes (dfs venues tokenIn tokenOut amountIn maxRoutes left token amount path visited
        routes) := by
  induction left generalizing token amount path visited routes with
  | zero => exact .refl
  | succ left ih =>
    rw [routesFrom, dfs]
    split
    next enough => exact .stop enough
    next =>
      refine cutOff_scanEdges (fun isLast hop => ?_) (fun hop => ih _ _ _ _) _ _
        _ _ _ _
      rw [beq_iff_eq.mp isLast]
      rfl

/-- The searched routes are the first of all routes, and enough of them. -/
theorem searchedRoutes_isPrefix (maxHops : ℕ) :
    searchedRoutes venues tokenIn tokenOut amountIn maxRoutes maxHops <+:
        allRoutes venues tokenIn tokenOut amountIn maxHops ∧
      min maxRoutes (allRoutes venues tokenIn tokenOut amountIn maxHops).length ≤
        (searchedRoutes venues tokenIn tokenOut amountIn maxRoutes maxHops).length := by
  rw [allRoutes, searchedRoutes]
  split
  next => exact ⟨List.prefix_rfl, min_le_right _ _⟩
  next =>
    obtain ⟨found, skipped, isFound, isAll, ends⟩ := @cutOff_dfs venues tokenIn tokenOut amountIn
      maxRoutes maxHops tokenIn amountIn [] [] []
    rw [isFound, List.nil_append] at ends ⊢
    rw [isAll]
    refine ⟨List.prefix_append _ _, ?_⟩
    rcases ends with rfl | enough
    · rw [List.append_nil]
      exact min_le_right _ _
    · exact (min_le_left _ _).trans enough

end Scan

/-! ## What the routes are -/

section Routes

variable {tokenIn tokenOut : AccountId} {amountIn : ℤ} {token : AccountId} {amount : ℤ}
  {path : List RouteHop} {visited : List AccountId} {left : ℕ} {hop : RouteHop}
  {rest : List RouteHop}

/-- The route consists of the path and some hops behind it, and pays what the last one pays. -/
structure Describes (tokenIn tokenOut : AccountId) (amountIn : ℤ) (path further : List RouteHop)
    (route : CpSwapRoute) : Prop where
  hops : route.hops = path ++ further
  tokenIn : route.tokenIn = tokenIn
  tokenOut : route.tokenOut = tokenOut
  amountIn : route.amountIn = amountIn
  amountOut : further.getLast?.map (·.amountOut) = some route.amountOut

theorem venue_of_hopThrough {venue : CpPoolVenue}
    (isHop : hopThrough venue token amount = some hop) :
    hop.venue = venue ∧ (venue.tokenA = token ∨ venue.tokenB = token) := by
  unfold hopThrough at isHop
  split at isHop
  next => cases isHop
  next quote quoted =>
    split at isHop
    next => cases isHop
    next =>
      cases isHop
      refine ⟨rfl, ?_⟩
      unfold quoteCpPoolSwap at quoted
      split at quoted
      next => cases quoted
      next =>
        split at quoted
        next isA => exact .inl isA.symm
        next =>
          split at quoted
          next isB => exact .inr isB.symm
          next => cases quoted

/-- The first hop of a route, and the hops behind it. -/
theorem reaching_cons : Reaching venues tokenOut (left + 1) token amount visited (hop :: rest) ↔
    hop.venue ∈ venues ∧ hopThrough hop.venue token amount = some hop ∧ hop.venue.pool ∉ visited ∧
      (rest = [] ∧ hop.tokenOut = tokenOut ∨ hop.tokenOut ≠ tokenOut ∧
        Reaching venues tokenOut left hop.tokenOut hop.amountOut (hop.venue.pool :: visited)
          rest) := by
  constructor
  · rintro ⟨⟨isVenue, isHop, chained⟩, length, pools, unvisited, ends, before⟩
    refine ⟨isVenue, isHop, unvisited hop (by simp), ?_⟩
    cases rest with
    | nil => exact .inl ⟨rfl, by simpa using ends⟩
    | cons next others =>
      obtain ⟨new, pools⟩ := List.nodup_cons.mp pools
      refine .inr ⟨before hop (by simp), chained, by simpa using length, pools, ?_, ?_, ?_⟩
      · intro other member
        rw [List.mem_cons, not_or]
        exact ⟨fun same => new (List.mem_map.mpr ⟨other, member, same⟩),
          unvisited other (List.mem_cons_of_mem _ member)⟩
      · simpa using ends
      · intro other member
        exact before other (by rw [List.dropLast_cons_cons]; exact List.mem_cons_of_mem _ member)
  · rintro ⟨isVenue, isHop, new, ⟨rfl, isEnd⟩ | ⟨notEnd, reaching⟩⟩
    · exact ⟨⟨isVenue, isHop, trivial⟩, by simp, by simp, by simpa using new, by simpa using isEnd,
        by simp⟩
    · obtain ⟨chained, length, pools, unvisited, ends, before⟩ := reaching
      have nonempty : rest ≠ [] := by
        rintro rfl
        cases ends
      refine ⟨⟨isVenue, isHop, chained⟩, by simpa using length, ?_, ?_, ?_, ?_⟩
      · refine List.nodup_cons.mpr ⟨fun member => ?_, pools⟩
        obtain ⟨other, isOther, samePool⟩ := List.mem_map.mp member
        exact unvisited other isOther (samePool ▸ List.mem_cons_self)
      · exact List.forall_mem_cons.mpr ⟨new, fun other member known =>
          unvisited other member (List.mem_cons_of_mem _ known)⟩
      · rwa [List.getLast?_cons_of_ne_nil nonempty]
      · rw [List.dropLast_cons_of_ne_nil nonempty]
        exact List.forall_mem_cons.mpr ⟨notEnd, before⟩

theorem describes_cons (nonempty : rest ≠ []) :
    Describes tokenIn tokenOut amountIn path (hop :: rest) route ↔
      Describes tokenIn tokenOut amountIn (path ++ [hop]) rest route := by
  constructor
  · rintro ⟨hops, isTokenIn, isTokenOut, isAmountIn, amountOut⟩
    rw [List.getLast?_cons_of_ne_nil nonempty] at amountOut
    exact ⟨by simpa using hops, isTokenIn, isTokenOut, isAmountIn, amountOut⟩
  · rintro ⟨hops, isTokenIn, isTokenOut, isAmountIn, amountOut⟩
    refine ⟨by simpa using hops, isTokenIn, isTokenOut, isAmountIn, ?_⟩
    rwa [List.getLast?_cons_of_ne_nil nonempty]

/-- The search without a cut enumerates the routes. -/
theorem mem_routesFrom : route ∈ routesFrom venues tokenIn tokenOut amountIn left token amount path
      visited ↔ ∃ hops, Describes tokenIn tokenOut amountIn path hops route ∧
      Reaching venues tokenOut left token amount visited hops := by
  induction left generalizing token amount path visited with
  | zero =>
    refine ⟨nofun, fun ⟨hops, _, reaching⟩ => ?_⟩
    have isNil := List.eq_nil_of_length_eq_zero (Nat.le_zero.mp reaching.length)
    have ends := reaching.ends
    rw [isNil] at ends
    cases ends
  | succ left ih =>
    rw [routesFrom, List.mem_flatMap]
    constructor
    · rintro ⟨venue, isEdge, member⟩
      have isVenue : venue ∈ venues := (List.mem_filter.mp isEdge).1
      unfold routesThrough at member
      split at member
      next => cases member
      next new =>
        split at member
        next => cases member
        next hop isHop =>
          obtain ⟨rfl, -⟩ := venue_of_hopThrough isHop
          split at member
          next isEnd =>
            rw [List.mem_singleton.mp member]
            exact ⟨[hop], ⟨rfl, rfl, rfl, rfl, rfl⟩,
              reaching_cons.mpr ⟨isVenue, isHop, new, .inl ⟨rfl, isEnd⟩⟩⟩
          next notEnd =>
            obtain ⟨hops, describes, reaching⟩ := ih.mp member
            have nonempty : hops ≠ [] := by
              rintro rfl
              cases reaching.ends
            exact ⟨hop :: hops, (describes_cons nonempty).mpr describes,
              reaching_cons.mpr ⟨isVenue, isHop, new, .inr ⟨notEnd, reaching⟩⟩⟩
    · rintro ⟨hops, describes, reaching⟩
      cases hops with
      | nil => cases reaching.ends
      | cons hop rest =>
        obtain ⟨isVenue, isHop, new, ends⟩ := reaching_cons.mp reaching
        refine ⟨hop.venue, List.mem_filter.mpr ⟨isVenue, ?_⟩, ?_⟩
        · exact decide_eq_true (venue_of_hopThrough isHop).2
        · rw [routesThrough, if_neg new, isHop]
          dsimp only
          rcases ends with ⟨rfl, isEnd⟩ | ⟨notEnd, further⟩
          · rw [if_pos isEnd, List.mem_singleton]
            exact CpSwapRoute.ext describes.hops describes.tokenIn describes.tokenOut
              describes.amountIn (Option.some.inj describes.amountOut).symm
          · have nonempty : rest ≠ [] := by
              rintro rfl
              cases further.ends
            rw [if_neg notEnd]
            exact ih.mpr ⟨rest, (describes_cons nonempty).mp describes, further⟩

end Routes

/-! ## The best routes -/

section Best

variable {tokenIn tokenOut : AccountId} {amountIn : ℤ} {maxRoutes maxHops : ℕ}
  {returned : List CpSwapRoute}

/-- A route between the tokens; from a token to itself nothing is swapped. -/
def IsCpRoute (venues : List CpPoolVenue) (tokenIn tokenOut : AccountId) (amountIn : ℤ)
    (maxHops : ℕ) (route : CpSwapRoute) : Prop :=
  if tokenIn = tokenOut then route = ⟨[], tokenIn, tokenOut, amountIn, amountIn⟩
  else Describes tokenIn tokenOut amountIn [] route.hops route ∧
    Reaching venues tokenOut maxHops tokenIn amountIn [] route.hops

theorem mem_allRoutes : route ∈ allRoutes venues tokenIn tokenOut amountIn maxHops ↔
    IsCpRoute venues tokenIn tokenOut amountIn maxHops route := by
  rw [allRoutes, IsCpRoute]
  split
  next => exact List.mem_singleton
  next =>
    rw [mem_routesFrom]
    refine ⟨fun ⟨hops, describes, reaching⟩ => ?_, fun found => ⟨route.hops, found⟩⟩
    have isHops : route.hops = hops := describes.hops
    rw [isHops]
    exact ⟨describes, reaching⟩

/-- The returned routes are the best ones in order, as many as are asked for or all. -/
structure BestRoutes (venues : List CpPoolVenue) (tokenIn tokenOut : AccountId) (amountIn : ℤ)
    (maxHops maxRoutes : ℕ) (returned : List CpSwapRoute) : Prop where
  routes : ∀ route ∈ returned, IsCpRoute venues tokenIn tokenOut amountIn maxHops route
  sorted : returned.Pairwise fun left right => right.amountOut ≤ left.amountOut
  length : returned.length =
    min maxRoutes (allRoutes venues tokenIn tokenOut amountIn maxHops).length
  best : ∃ others, (returned ++ others).Perm (allRoutes venues tokenIn tokenOut amountIn maxHops) ∧
    ∀ other ∈ others, ∀ route ∈ returned, other.amountOut ≤ route.amountOut

/-- The routes in the order of their output. -/
def sortedRoutes (routes : List CpSwapRoute) : List CpSwapRoute :=
  routes.insertionSort fun left right => right.amountOut ≤ left.amountOut

theorem pairwise_sortedRoutes :
    (sortedRoutes routes).Pairwise fun left right => right.amountOut ≤ left.amountOut := by
  have total : Std.Total fun left right : CpSwapRoute => right.amountOut ≤ left.amountOut :=
    ⟨fun left right => le_total right.amountOut left.amountOut⟩
  have isTrans : IsTrans CpSwapRoute fun left right => right.amountOut ≤ left.amountOut :=
    ⟨fun _ _ _ first second => second.trans first⟩
  exact List.pairwise_insertionSort _ routes

theorem take_drop_sortedRoutes (limit : ℕ) :
    ∀ other ∈ (sortedRoutes routes).drop limit, ∀ route ∈ (sortedRoutes routes).take limit,
      other.amountOut ≤ route.amountOut := by
  intro other isOther route isRoute
  have sorted := pairwise_sortedRoutes routes
  rw [← List.take_append_drop limit (sortedRoutes routes)] at sorted
  exact (List.pairwise_append.mp sorted).2.2 route isRoute other isOther

theorem returned_eq (positive : tokenIn = tokenOut → 0 < maxRoutes)
    (found : findBestCpRoutes venues tokenIn tokenOut amountIn maxRoutes maxHops = .ok returned) :
    returned = (sortedRoutes (searchedRoutes venues tokenIn tokenOut amountIn maxRoutes
      maxHops)).take maxRoutes := by
  unfold findBestCpRoutes at found
  split at found
  next => cases found
  next =>
    split at found
    next => cases found
    next =>
      split at found
      next same =>
        cases found
        obtain ⟨more, rfl⟩ := Nat.exists_eq_succ_of_ne_zero (positive same).ne'
        simp [searchedRoutes, if_pos same, sortedRoutes]
      next =>
        cases found
        rfl

end Best

/-- A pool with equal reserves and no fee. -/
def samplePool (pool tokenA tokenB : AccountId) : CpPoolVenue := ⟨pool, tokenA, tokenB, 900, 900, 0⟩

/-- Two pools by way of token 30, and one pool for tokens 10 and 20. -/
def samplePools : List CpPoolVenue := [samplePool 1 10 30, samplePool 2 30 20, samplePool 3 10 20]

/-- The route of two hops. -/
def sampleDetour : CpSwapRoute :=
  ⟨[⟨samplePool 1 10 30, 10, 30, 100, 90, 0⟩, ⟨samplePool 2 30 20, 30, 20, 90, 81, 0⟩], 10, 20, 100,
    81⟩

def sampleDirect : CpSwapRoute := ⟨[⟨samplePool 3 10 20, 10, 20, 100, 90, 0⟩], 10, 20, 100, 90⟩

end BoingNetwork.Sdk
