import Switchyard.Store.Server
import Switchyard.Topology.Cache
import Switchyard.Variant.Manager
import Switchyard.Proofs.Network.Listings
import Switchyard.Proofs.Store.Step
import Switchyard.Proofs.Dialogue.Outcome
import Switchyard.Proofs.Store.Generations
import Switchyard.Proofs.Topology.Listed
import Switchyard.Proofs.Topology.Reading
import Switchyard.Proofs.Store.Disturbed
import Switchyard.Proofs.Topology.Calls
import Switchyard.Proofs.Cache.World
import Switchyard.Proofs.Cache.Freshness
import Switchyard.Proofs.Graph.Linked
import Switchyard.Proofs.Topology.Built
import Switchyard.Proofs.Topology.Classes
import Switchyard.Proofs.Dialogue.Session
import Switchyard.Proofs.Variant.Rounds
import Switchyard.Proofs.Variant.Listing
import Switchyard.Proofs.Variant.Commands
import Switchyard.Proofs.Variant.Concourse
import Switchyard.Proofs.Store.Names
import Switchyard.Proofs.Variant.Contested
import Switchyard.Proofs.Variant.Catalogue
import Switchyard.Proofs.Store.Networks
import Switchyard.Proofs.Variant.Alone
import Switchyard.Proofs.Variant.Refinement
import Switchyard.Proofs.Dialogue.Interference
import Switchyard.Proofs.Store.Gains
import Switchyard.Proofs.Variant.Additions
import Switchyard.Proofs.Store.Faltering
import Switchyard.Proofs.Variant.Mirror
import Switchyard.Proofs.Store.Redating
import Switchyard.Proofs.Store.Alike
import Switchyard.Proofs.Store.Following
import Switchyard.Proofs.Store.Snapshot
import Switchyard.Proofs.Dialogue.Alongside
import Switchyard.Proofs.Topology.Agreement
import Switchyard.Proofs.Cache.Correspondence
import Switchyard.Proofs.Cache.Isolation
import Switchyard.Proofs.Variant.Journal
import Switchyard.Proofs.Variant.Progress
import Switchyard.Proofs.Variant.Crowd
import Switchyard.Proofs.Graph.Search
import Switchyard.Proofs.Topology.Multigraph
import Switchyard.Proofs.Topology.Single
import Switchyard.Proofs.Store.Families
import Switchyard.Proofs.Topology.Terminals
import Switchyard.Proofs.Graph.Subgraph
import Switchyard.Proofs.Store.Switching
import Switchyard.Proofs.Topology.Bridges
import Switchyard.Proofs.Topology.Opening
import Switchyard.Proofs.Topology.Closing
import Switchyard.Proofs.Graph.Seams
import Switchyard.Proofs.Topology.Views
import Switchyard.Proofs.Topology.Reordering
import Switchyard.Proofs.Topology.Refusals
import Switchyard.Proofs.Variant.Protocol
import Switchyard.Proofs.Variant.Audience
import Switchyard.Proofs.Variant.Steadfast
import Switchyard.Proofs.Store.Frame
import Switchyard.Proofs.Dialogue.Strict
import Switchyard.Proofs.Dialogue.Returns
import Switchyard.Proofs.Store.Touching
import Switchyard.Proofs.Topology.Questions
import Switchyard.Proofs.Cache.Upkeep
import Switchyard.Proofs.Cache.Retention
import Switchyard.Proofs.Dialogue.Told
import Switchyard.Proofs.Cache.Judgements
import Switchyard.Proofs.Topology.Answers
import Switchyard.Proofs.Topology.Naming
