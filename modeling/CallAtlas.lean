import CallAtlas.Engine.Operation
import CallAtlas.Main
import CallAtlas.Proofs.Engine.Forces
import CallAtlas.Proofs.Graph.Adjacency
import CallAtlas.Proofs.Number.Exact
import CallAtlas.Proofs.Physics.Regions
import CallAtlas.Proofs.Physics.Overlaps
import CallAtlas.Proofs.Physics.Sources
import CallAtlas.Proofs.Engine.Loads
import CallAtlas.Proofs.Engine.Safety
import CallAtlas.Proofs.Engine.History
import CallAtlas.Proofs.Engine.Look
import CallAtlas.Proofs.Engine.Highlights
import CallAtlas.Proofs.Engine.Rows
import CallAtlas.Proofs.Payload.Detection
import CallAtlas.Proofs.View.Requests
import CallAtlas.Proofs.View.Overview
import CallAtlas.Proofs.Payload.Depiction
import CallAtlas.Proofs.Viewer.Run
import CallAtlas.Proofs.Viewer.Hand
import CallAtlas.Proofs.Viewer.Panels
import CallAtlas.Proofs.Viewer.Hits
import CallAtlas.Proofs.Session.Deliveries
import CallAtlas.Proofs.Viewer.Agreement
import CallAtlas.Proofs.Graph.Distance
import CallAtlas.Proofs.Graph.Forest
import CallAtlas.Proofs.Layout.Rings
import CallAtlas.Proofs.Layout.Walk
import CallAtlas.Proofs.Layout.Placement
import CallAtlas.Proofs.Engine.Independence
import CallAtlas.Proofs.Engine.Temperature
import CallAtlas.Proofs.Payload.Findings
import CallAtlas.Proofs.Physics.Nesting
import CallAtlas.Proofs.Search.Ranking
import CallAtlas.Proofs.Engine.Pacing
import CallAtlas.Proofs.Settings.Stability
import CallAtlas.Proofs.Engine.Cooling
import CallAtlas.Proofs.View.Pivot
import CallAtlas.Proofs.Physics.LinkBalance
import CallAtlas.Proofs.Layout.Precedence
import CallAtlas.Proofs.Physics.Clusters
import CallAtlas.Proofs.Settings.Workable
import CallAtlas.Proofs.Table
