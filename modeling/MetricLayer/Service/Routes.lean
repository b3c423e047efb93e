import MetricLayer.Route.Router
import MetricLayer.Service.Basic

/-!
# Routing requests to stored tables
-/

namespace MetricLayer.Service

variable (service : Service)

def router (table : String) : Act Router := do
  let registry ← loadRegistry table
  let c ← loadCatalog table
  let optimized ← loadOptimized table
  pure { registry, rollups := c.rollups, optimized, config := service.config.router }

def route (table : String) (request : RouteRequest) : Act RouteDecision := do
  let router ← service.router table
  router.route request

def findSuitableRollups (table : String) (request : RouteRequest) :
    Act (List RollupCandidate) := do
  let router ← service.router table
  router.findSuitableRollups request

end MetricLayer.Service
